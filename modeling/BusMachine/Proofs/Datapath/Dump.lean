import Mathlib.Data.Rat.Floor
import BusMachine.Proofs.Datapath.Bank
import BusMachine.Proofs.Instruction.Encoding
import BusMachine.Proofs.Text.Columns
import BusMachine.Proofs.Text.PlainText

/-!
Dumps of a memory. The rows show the cells of a range one after the other, each of them once, and
they are read back from the text of the dump. There is no such text if a word of the range has more
digits than can be written.
-/
namespace BusMachine

open Text

section

variable {start stop step : Int}

theorem lt_strideCount_iff (up : 0 < step) (i : Nat) :
    i < strideCount start stop step ↔ start + i * step < stop := by
  rw [strideCount, if_pos up, Int.lt_toNat, ← Int.add_one_le_iff, Int.le_ediv_iff_mul_le up,
    Int.add_mul, Int.one_mul]
  omega

theorem strideCount_eq_ceil (up : 0 < step) :
    (strideCount start stop step : Int) = max 0 ⌈((stop - start : Int) : ℚ) / step⌉ := by
  have positive : (0 : ℚ) < step := Int.cast_pos.mpr up
  have same : strideCount start stop step = ⌈((stop - start : Int) : ℚ) / step⌉.toNat := by
    refine eq_of_forall_lt_iff fun i => ?_
    rw [lt_strideCount_iff up, Int.lt_toNat, Int.lt_ceil, lt_div_iff₀ positive, ← Int.cast_mul,
      Int.cast_lt]
    omega
  rw [same, Int.toNat_eq_max, max_comm]

end

namespace Memory

/-- Where a dump ends: behind so many cells, or with the memory. -/
def dumpEnd (m : Memory) (start : Int) : Option Int → Int
  | none => m.size
  | some length => min (start + length) m.size

/-- The cells from `start` up to `stop`. -/
def segment (m : Memory) (start stop : Int) : List Int :=
  (m.cells.toList.take stop.toNat).drop start.toNat

/-- The rows show the cells from `start` up to `stop`, each of them once. -/
structure Covers (m : Memory) (start stop perRow : Int) (rows : List Row) : Prop where
  count : (rows.length : Int) = max 0 ⌈((stop - start : Int) : ℚ) / perRow⌉
  address : ∀ (i : Nat) (r : Row), rows[i]? = some r → r.address = start + i * perRow
  full : ∀ (i : Nat) (r : Row), rows[i]? = some r → i + 1 < rows.length → r.words.length = perRow
  joined : rows.flatMap Row.words = m.segment start stop
  filled : ∀ r ∈ rows, 1 ≤ r.words.length ∧ r.words.length ≤ perRow
  inside : ∀ r ∈ rows,
    start ≤ r.address ∧ r.address + r.words.length ≤ stop ∧ r.address + r.words.length ≤ m.size
  slice : ∀ r ∈ rows, Position.slice m.cells.toList r.address (r.address + r.words.length) = r.words

/-- A line from which the row is read: its address before a colon, and then its words with
blanks between them. -/
def Row.ReadFrom (line : List Char) (r : Row) : Prop :=
  ∃ label numerals, Text.words line = (label ++ [':']) :: numerals ∧
    Numeral.read (String.ofList label) = .ok r.address ∧
    List.Forall₂ (fun numeral w => Numeral.read (String.ofList numeral) = .ok w) numerals r.words

variable {m : Memory}

theorem dumpEnd_le (m : Memory) (start : Int) (length : Option Int) :
    m.dumpEnd start length ≤ m.size := by
  cases length with
  | none => exact Int.le_refl _
  | some length => exact Int.min_le_right _ _

theorem dumpEnd_eq (m : Memory) (start : Int) (length : Option Int) :
    min (start + length.getD (m.size - start)) m.size = m.dumpEnd start length := by
  cases length with
  | none =>
    rw [Option.getD_none, dumpEnd]
    omega
  | some length => rfl

theorem length_segment {stop : Int} (inside : stop ≤ m.size) (a : Nat) :
    (m.segment a stop).length = stop.toNat - a := by
  have short : stop.toNat ≤ m.cells.toList.length := by
    rw [Array.length_toList]
    exact Int.toNat_le.mpr inside
  rw [segment, List.length_drop, List.length_take, Nat.min_eq_left short, Int.toNat_natCast]

/-- Row number `i` of those that show the cells from `a` up to `stop`. -/
def rowAt (m : Memory) (stop : Int) (a p i : Nat) : Row :=
  ⟨(a + i * p : Nat), ((m.segment a stop).drop (i * p)).take p⟩

def rowsTo (m : Memory) (stop : Int) (a p : Nat) : List Row :=
  (List.range (strideCount a stop p)).map (m.rowAt stop a p)

variable {stop : Int} {a p i : Nat} {r : Row}

theorem slice_eq_take {xs : List Int} (early : a < stop) (inside : stop ≤ xs.length) :
    Position.slice xs a (min (a + p) stop) = ((xs.take stop.toNat).drop a).take p := by
  obtain ⟨s, rfl⟩ :=
    Int.eq_ofNat_of_zero_le (Int.le_trans (Int.natCast_nonneg a) (Int.le_of_lt early))
  have cut : min ((a : Int) + p) (s : Nat) = (min (a + p) s : Nat) := by omega
  rw [Position.slice, cut, Position.clamp_natCast (by omega), Position.clamp_natCast (by omega),
    List.take_drop, List.take_take, Int.toNat_natCast]

theorem rows_eq (filled : 0 < p) (a : Nat) (length : Option Int) :
    m.rows a length p = .ok (m.rowsTo (m.dumpEnd a length) a p) := by
  have inside : m.dumpEnd a length ≤ m.cells.toList.length := by
    rw [Array.length_toList]
    exact m.dumpEnd_le a length
  have some : (p : Int) ≠ 0 := by omega
  rw [rows, if_neg some]
  dsimp only
  rw [dumpEnd_eq, stride, List.map_map]
  refine congrArg Except.ok (List.map_congr_left fun i hi => ?_)
  have early := (lt_strideCount_iff (Int.natCast_pos.mpr filled) i).mp (List.mem_range.mp hi)
  have place : (a : Int) + i * p = (a + i * p : Nat) := by
    push_cast
    rfl
  rw [place] at early
  rw [Function.comp_apply, rowAt, place, slice_eq_take early inside, segment, List.drop_drop,
    Int.toNat_natCast]

theorem lt_strideCount_iff_segment (filled : 0 < p) (inside : stop ≤ m.size) (a i : Nat) :
    i < strideCount a stop p ↔ i * p < (m.segment a stop).length := by
  rw [lt_strideCount_iff (Int.natCast_pos.mpr filled), length_segment inside, ← Int.natCast_mul]
  omega

theorem length_rowAt (inside : stop ≤ m.size) (a p i : Nat) :
    (m.rowAt stop a p i).words.length = min p (stop.toNat - (a + i * p)) := by
  rw [rowAt, List.length_take, List.length_drop, length_segment inside, Nat.sub_sub]

theorem rowAt_stands (m : Memory) (stop : Int) (a p i : Nat) :
    (m.rowAt stop a p i).words <+: m.cells.toList.drop (a + i * p) := by
  rw [rowAt, segment, List.drop_drop, Int.toNat_natCast, List.drop_take]
  exact (List.take_prefix _ _).trans (List.take_prefix _ _)

theorem rowsTo_getElem? (here : (m.rowsTo stop a p)[i]? = some r) :
    i < strideCount a stop p ∧ m.rowAt stop a p i = r := by
  rw [rowsTo, List.getElem?_map, Option.map_eq_some_iff] at here
  obtain ⟨j, at_i, row⟩ := here
  obtain ⟨bound, same⟩ := List.getElem?_eq_some_iff.mp at_i
  rw [List.getElem_range] at same
  rw [List.length_range] at bound
  exact ⟨bound, same ▸ row⟩

/-- The chunks of a list are the list again, as far as they reach. -/
theorem flatMap_chunks (shown : List Int) (p n : Nat) :
    (List.range n).flatMap (fun i => (shown.drop (i * p)).take p) = shown.take (n * p) := by
  induction n with
  | zero => rw [Nat.zero_mul, List.take_zero, List.range_zero, List.flatMap_nil]
  | succ n ih =>
    rw [List.range_succ, List.flatMap_append, ih, List.flatMap_singleton, Nat.succ_mul,
      List.take_add]

theorem rowsTo_joined (filled : 0 < p) (inside : stop ≤ m.size) (a : Nat) :
    (m.rowsTo stop a p).flatMap Row.words = m.segment a stop := by
  have reach : (m.segment a stop).length ≤ strideCount a stop p * p :=
    Nat.le_of_not_lt fun more =>
      Nat.lt_irrefl _ ((lt_strideCount_iff_segment filled inside a _).mpr more)
  rw [rowsTo, List.flatMap_map]
  exact (flatMap_chunks _ _ _).trans (List.take_of_length_le reach)

theorem rowsTo_covers (filled : 0 < p) (inside : stop ≤ m.size) (a : Nat) :
    m.Covers a stop p (m.rowsTo stop a p) := by
  have short : stop.toNat ≤ m.size := Int.toNat_le.mpr inside
  -- Every row begins in the segment, so that only the end of the segment can cut a row short.
  have begins : ∀ {i}, i < strideCount a stop p → a + i * p < stop.toNat := by
    intro i early
    rw [lt_strideCount_iff_segment filled inside, length_segment inside] at early
    omega
  have count : (m.rowsTo stop a p).length = strideCount a stop p := by
    rw [rowsTo, List.length_map, List.length_range]
  have each : ∀ r ∈ m.rowsTo stop a p, ∃ i, a + i * p < stop.toNat ∧ m.rowAt stop a p i = r := by
    intro r hr
    obtain ⟨i, hi, row⟩ := List.mem_map.mp hr
    exact ⟨i, begins (List.mem_range.mp hi), row⟩
  exact
    { count := by rw [count, strideCount_eq_ceil (Int.natCast_pos.mpr filled)]
      address := by
        intro i r here
        obtain ⟨-, rfl⟩ := rowsTo_getElem? here
        rw [rowAt]
        push_cast
        rfl
      full := by
        intro i r here later
        obtain ⟨-, rfl⟩ := rowsTo_getElem? here
        have next := begins (count ▸ later)
        rw [Nat.succ_mul] at next
        rw [length_rowAt inside]
        omega
      filled := by
        intro r hr
        obtain ⟨i, early, rfl⟩ := each r hr
        rw [length_rowAt inside]
        omega
      inside := by
        intro r hr
        obtain ⟨i, early, rfl⟩ := each r hr
        rw [length_rowAt inside, rowAt]
        dsimp only
        omega
      joined := rowsTo_joined filled inside a
      slice := by
        intro r hr
        obtain ⟨i, early, rfl⟩ := each r hr
        have room : a + i * p ≤ m.cells.toList.length := by
          rw [Array.length_toList]
          exact Nat.le_trans (Nat.le_of_lt early) short
        exact Position.slice_of_stands room (m.rowAt_stands stop a p i) }

namespace Row

theorem toList_text (r : Row) :
    r.text.toList = ((zeroPadded 4 r.address).toList ++ [':']) ++
      ' ' :: [' '].intercalate (r.words.map (fun w => (alignRight 6 (toString w)).toList)) := by
  have gap : ": ".toList = [':', ' '] := rfl
  have blank : " ".toList = [' '] := rfl
  rw [text, String.toList_append, String.toList_append, String.toList_intercalate, gap, blank,
    List.map_map, List.append_assoc, List.append_assoc]
  rfl

theorem label_plain (r : Row) :
    ∀ c ∈ (zeroPadded 4 r.address).toList ++ [':'], isPlain c = true := by
  intro c mem
  rcases List.mem_append.mp mem with mem | colon
  · exact (decimal_zeroPadded 4 r.address).isPlain c mem
  · rw [List.mem_singleton.mp colon]
    rfl

theorem words_text (r : Row) :
    Text.words r.text.toList =
      ((zeroPadded 4 r.address).toList ++ [':']) :: r.words.map (fun w => (toString w).toList) := by
  have column : ∀ w : Int,
    Text.words (alignRight 6 (toString w)).toList = [(toString w).toList] := by
    intro w
    have decimal := decimal_toString w
    rw [words_alignRight, words_of_not_blank decimal.ne_nil fun c hc =>
      isBlank_of_isPlain (decimal.isPlain c hc)]
  have label := words_of_not_blank (List.append_ne_nil_of_right_ne_nil _ (List.cons_ne_nil ':' []))
    fun c hc => isBlank_of_isPlain (r.label_plain c hc)
  rw [toList_text, words_append rfl, label, words_intercalate, List.flatMap_map,
    List.singleton_append, List.flatMap_congr (fun w _ => column w), ← List.map_eq_flatMap]

theorem text_whole (r : Row) : ∀ c ∈ r.text.toList, endsLine c = false := by
  intro c mem
  rw [toList_text, List.mem_append, List.mem_cons] at mem
  rcases mem with label | rfl | column
  · exact endsLine_of_isPlain (r.label_plain c label)
  · rfl
  · refine forall_mem_intercalate (p := fun c =>
      endsLine c = false) (List.forall_mem_singleton.mpr rfl) ?_ c column
    intro l hl d hd
    obtain ⟨w, -, rfl⟩ := List.mem_map.mp hl
    rcases eq_blank_or_mem hd with rfl | digit
    · rfl
    · exact endsLine_of_isPlain ((decimal_toString w).isPlain d digit)

theorem readFrom_text {r : Row} (writable : r.isWritable .limited = true) :
    r.ReadFrom r.text.toList := by
  rw [isWritable, List.all_eq_true, List.forall_mem_cons] at writable
  refine ⟨_, _, r.words_text, ?_, ?_⟩
  · rw [String.ofList_toList]
    exact read_zeroPadded (by decide) writable.1
  · refine List.forall₂_map_left_iff.mpr (List.forall₂_same.mpr fun w hw => ?_)
    rw [String.ofList_toList]
    exact Numeral.read_toString (writable.2 w hw)

end Row

theorem lines_rows (rows : List Row) :
    lines ("\n".intercalate (rows.map Row.text)).toList = rows.map (fun r => r.text.toList) := by
  have feed : "\n".toList = ['\n'] := rfl
  rw [String.toList_intercalate, feed, List.map_map]
  refine lines_intercalate ?_ ?_
  · intro l hl
    obtain ⟨r, -, rfl⟩ := List.mem_map.mp hl
    rw [Function.comp_apply, Row.toList_text]
    exact List.append_ne_nil_of_right_ne_nil _ (List.cons_ne_nil _ _)
  · intro l hl
    obtain ⟨r, -, rfl⟩ := List.mem_map.mp hl
    exact r.text_whole

theorem dump_eq (filled : 0 < p) (a : Nat) (length : Option Int) :
    m.dump .limited a length p =
      if (m.rowsTo (m.dumpEnd a length) a p).all (Row.isWritable .limited) then
        .ok ("\n".intercalate ((m.rowsTo (m.dumpEnd a length) a p).map Row.text))
      else .error .unwritable := by
  rw [dump, rows_eq filled]
  rfl

/-- Every memory that can be made has a size that can be written. -/
theorem isWritable_size {host : Host} {n : Int} (made : ofSize host n = .ok m) :
    Numeral.isWritable m.size = true := by
  obtain ⟨rfl, -, short⟩ := ofSize_ok made
  have cells : (blank n.toNat).size = n.toNat := Array.size_replicate
  rw [cells]
  exact Numeral.isWritable_of_small (by omega)

theorem dump_of_writable (filled : 0 < p) (length : Option Int)
    (size : Numeral.isWritable m.size = true)
    (words : ∀ w ∈ m.segment a (m.dumpEnd a length), Numeral.isWritable w = true) :
    ∃ text, m.dump .limited a length p = .ok text ∧
      List.Forall₂ Row.ReadFrom (lines text.toList) (m.rowsTo (m.dumpEnd a length) a p) := by
  have covers := rowsTo_covers filled (m.dumpEnd_le a length) a
  have writable : ∀ r ∈ m.rowsTo (m.dumpEnd a length) a p, r.isWritable .limited = true := by
    intro r hr
    rw [Row.isWritable, List.all_eq_true, List.forall_mem_cons]
    constructor
    · have inside := covers.inside r hr
      exact Numeral.isWritable_of_le (by omega) size
    · intro w hw
      exact words w (covers.joined ▸ List.mem_flatMap.mpr ⟨r, hr, hw⟩)
  refine ⟨_, by rw [dump_eq filled, if_pos (List.all_eq_true.mpr writable)], ?_⟩
  rw [lines_rows]
  exact List.forall₂_map_left_iff.mpr (List.forall₂_same.mpr fun r hr =>
    Row.readFrom_text (writable r hr))

theorem dump_of_long (filled : 0 < p) (length : Option Int) {w : Int}
    (mem : w ∈ m.segment a (m.dumpEnd a length)) (long : Numeral.isWritable w = false) :
    m.dump .limited a length p = .error .unwritable := by
  rw [← rowsTo_joined filled (m.dumpEnd_le a length) a] at mem
  obtain ⟨r, hr, hw⟩ := List.mem_flatMap.mp mem
  rw [dump_eq filled, if_neg]
  intro all
  have writable := List.all_eq_true.mp (List.all_eq_true.mp all r hr) w (List.mem_cons_of_mem _ hw)
  cases long.symm.trans writable

/-- A dump covers its range exactly once, and its rows are read back from the lines of its text. The
text is missing if a word of the range has too many digits to be written, and in a memory of a size
that can be written only then. -/
theorem dump_covers_range {start perRow : Int} (low : 0 ≤ start) (filled : 1 ≤ perRow)
    (length : Option Int) :
    ∃ rows, m.rows start length perRow = .ok rows ∧
      m.Covers start (m.dumpEnd start length) perRow rows ∧
      (Numeral.isWritable m.size = true →
        (∀ w ∈ m.segment start (m.dumpEnd start length), Numeral.isWritable w = true) →
        ∃ text, m.dump .limited start length perRow = .ok text ∧
          List.Forall₂ Row.ReadFrom (lines text.toList) rows) ∧
      ((∃ w ∈ m.segment start (m.dumpEnd start length), Numeral.isWritable w = false) →
        m.dump .limited start length perRow = .error .unwritable) := by
  obtain ⟨a, rfl⟩ := Int.eq_ofNat_of_zero_le low
  obtain ⟨p, rfl⟩ := Int.eq_ofNat_of_zero_le (Int.le_trans Int.one_nonneg filled)
  have positive : 0 < p := Int.natCast_pos.mp filled
  refine ⟨_, rows_eq positive a length, rowsTo_covers positive (m.dumpEnd_le a length) a, ?_, ?_⟩
  · exact dump_of_writable positive length
  · rintro ⟨w, mem, long⟩
    exact dump_of_long positive length mem long

def holdsEight : Memory := ⟨#[5, -99999, -100000, 999999, 1000000, 0, -1, 7], 0⟩

def clippedDump : String :=
  "0001: -99999 -100000 999999\n" ++
  "0004: 1000000      0     -1\n" ++
  "0007:      7"

/-- The length goes past the end of the memory, and the last row is not full. -/
theorem clipped_range_is_dumped :
    holdsEight.dump .limited 1 (some 100) 3 = .ok clippedDump ∧
      ∃ rows, holdsEight.Covers 1 8 3 rows ∧
        List.Forall₂ Row.ReadFrom (lines clippedDump.toList) rows := by
  have dumped : holdsEight.dump .limited 1 (some 100) 3 = .ok clippedDump := by decide +kernel
  obtain ⟨rows, -, covers, written, -⟩ :=
    @dump_covers_range holdsEight 1 3 (by decide) (by decide) (some 100)
  have size : Numeral.isWritable 8 = true := Numeral.isWritable_of_small (by decide)
  obtain ⟨text, same, read⟩ := written size (by decide +kernel)
  rw [dumped] at same
  cases same
  exact ⟨dumped, rows, covers, read⟩

/-- The last word of this memory has one digit more than can be written, and there is no
text of a dump. -/
theorem long_word_is_not_dumped :
    ∃ m, (blank 4).load [11, 3, -1, 10 ^ 4300] 0 = .ok m ∧
      ¬ ∃ text, m.dump .limited 0 none 8 = .ok text := by
  have long := Numeral.not_isWritable_pow
  generalize (10 ^ 4300 : Int) = w at long
  have refused : dump .limited ⟨#[11, 3, -1, w], 0⟩ 0 none 8 = .error .unwritable :=
    dump_of_long (a := 0) (p := 8) (by decide) none (List.mem_of_getLast? rfl) long
  refine ⟨⟨#[11, 3, -1, w], 0⟩, rfl, ?_⟩
  rintro ⟨text, dumped⟩
  rw [refused] at dumped
  cases dumped

end Memory

end BusMachine
