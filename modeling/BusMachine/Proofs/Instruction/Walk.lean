import BusMachine.Proofs.Instruction.Texts
import BusMachine.Proofs.Text.Columns

/-!
What a disassembly shows of any words. The lines stand one behind the other from the first address
on, without a gap and without an overlap, up to the first halt word at one of their addresses or up
to the end of the range. They are written if all of their words can be.
-/
namespace BusMachine.Disassembly

variable {words : List Int} {stop : Int} {a : Nat} {lines : List Line}

/-- The lines from an address on. A line takes the words that it shows, and the next one
begins behind them. -/
inductive Walk (words : List Int) (stop : Int) : Nat → List Line → Prop where
  | passed {a : Nat} : stop ≤ a → Walk words stop a []
  | halt {a : Nat} : a < stop → [haltWord] <+: words.drop a →
      Walk words stop a [⟨a, [haltWord], "halt"⟩]
  | onward {a : Nat} {w : Int} {ws : List Int} {text : String} {lines : List Line} : a < stop →
      w ≠ haltWord →
      w :: ws <+: words.drop a → text ≠ "halt" → Decodes words a ⟨text, (w :: ws).length⟩ →
      Walk words stop (a + (w :: ws).length) lines → Walk words stop a (⟨a, w :: ws, text⟩ :: lines)

/-- Each line takes a word at least, so a walk inside the words comes to an end. -/
theorem exists_walk (inside : stop ≤ words.length) (a : Nat) :
    ∃ lines, Walk words stop a lines := by
  by_cases early : (a : Int) < stop
  · have bound : a < words.length := by omega
    obtain ⟨⟨text, size⟩, decodes⟩ := exists_decodes bound
    obtain ⟨ws, stand, rfl, written⟩ := decodes.written
    obtain ⟨w, ws, rfl⟩ := List.exists_cons_of_ne_nil written.ne_nil
    rcases written.halt_or_other with ⟨rfl, rfl, rfl⟩ | ⟨other, text⟩
    · exact ⟨_, .halt early stand⟩
    · have : 0 < (w :: ws).length := Nat.succ_pos _
      obtain ⟨lines, walk⟩ := exists_walk inside (a + (w :: ws).length)
      exact ⟨_, .onward early other stand text decodes walk⟩
  · exact ⟨[], .passed (Int.not_lt.mp early)⟩
termination_by (stop - a).toNat

/-- A line that can be written shows what is decoded, and the disassembly goes on behind it unless
it is the halt word. -/
theorem linesBetween_of_ok {k : Writing} {d : Decoded} {w : Int} {ws : List Int}
    (decoded : decodeAt k words a = .ok d) (stand : w :: ws <+: words.drop a)
    (size : (w :: ws).length = d.size) (early : (a : Int) < stop) :
    linesBetween k words a stop =
      if w = haltWord then .ok [⟨a, w :: ws, d.text⟩]
      else (linesBetween k words (a + (w :: ws).length : Nat) stop).map
        (⟨a, w :: ws, d.text⟩ :: ·) := by
  obtain ⟨at_a, inside⟩ := getElem?_of_stands stand
  have shown := Position.slice_of_stands inside stand
  rw [size] at shown ⊢
  rw [linesBetween, if_pos early]
  split
  · next e failed => cases failed.symm.trans decoded
  · next d' decoded' =>
    cases decoded'.symm.trans decoded
    simp only [wordAt, Position.read_of_getElem? at_a, Except.mapError, ← Int.natCast_add, shown]
    split
    · rfl
    · split
      · next failed => rw [failed]; rfl
      · next rest => rw [rest]; rfl

theorem linesBetween_of_error {k : Writing} {e : DisassemblyError}
    (failed : decodeAt k words a = .error e) (early : (a : Int) < stop) :
    linesBetween k words a stop = .error e := by
  rw [linesBetween, if_pos early]
  split
  · next e' failed' =>
    cases failed'.symm.trans failed
    rfl
  · next d decoded => cases decoded.symm.trans failed

theorem disassemble_of_error {k : Writing} {e : DisassemblyError}
    (failed : decodeAt k words a = .error e) (early : (a : Int) < stop) :
    disassemble k words a (some stop) = .error e := by
  rw [disassemble, Option.getD_some, linesBetween_of_error failed early]
  rfl

theorem write_cases (k : Writing) (ws : List Int) :
    (∀ {α : Type} (made : α), write k ws made = .ok made) ∨
      ∀ {α : Type} (made : α), write k ws made = .error (.numeral .unwritable) := by
  by_cases all : ∀ w ∈ ws, k.allows w = true
  · exact .inl (write_of_all all)
  · simp only [not_forall, Bool.not_eq_true] at all
    obtain ⟨w, mem, long⟩ := all
    exact .inr (write_of_not mem long)

theorem Walk.linesBetween_eq (walk : Walk words stop a lines) (k : Writing) :
    linesBetween k words a stop = write k (lines.flatMap Line.words) lines := by
  induction walk with
  | passed late => rw [linesBetween, if_neg (Int.not_lt.mpr late)]; rfl
  | @halt a early stand =>
    have decodes := Decodes.halt (getElem?_of_stands stand).1
    have decoded := decodes.decodeAt_of_stands stand rfl k
    rw [write_cons isWritable_haltWord] at decoded
    rw [linesBetween_of_ok decoded stand rfl early, if_pos rfl]
    exact (write_cons isWritable_haltWord [] _).symm
  | @onward a w ws text lines early other stand _ decodes _ ih =>
    have decoded := decodes.decodeAt_of_stands stand rfl k
    rw [List.flatMap_cons]
    have joined : (write k (w :: ws) (⟨a, w :: ws, text⟩ : Line) >>= fun l =>
        write k (lines.flatMap Line.words) lines >>= fun rest => .ok (l :: rest)) =
          write k (w :: ws ++ lines.flatMap Line.words) (⟨a, w :: ws, text⟩ :: lines) :=
            write_bind (· :: ·)
    rcases write_cases k (w :: ws) with all | not
    · rw [all] at decoded joined
      rw [linesBetween_of_ok decoded stand rfl early, if_neg other, ih, ← joined]
      cases write k (lines.flatMap Line.words) lines <;> rfl
    · rw [not] at decoded joined
      rw [linesBetween_of_error decoded early, ← joined]
      rfl

theorem mapM_render (k : Writing) (lines : List Line) :
    lines.mapM (fun l => write k l.words l.render) =
      write k (lines.flatMap Line.words) (lines.map Line.render) := by
  induction lines with
  | nil => rfl
  | cons l lines ih =>
    rw [List.mapM_cons, ih]
    exact write_bind (· :: ·)

theorem Walk.disassemble_eq (walk : Walk words stop a lines) (k : Writing) :
    disassemble k words a (some stop) =
      write k (lines.flatMap Line.words) (lines.map Line.render) := by
  have texts := mapM_render k lines
  rw [disassemble, Option.getD_some, walk.linesBetween_eq k]
  rcases write_cases k (lines.flatMap Line.words) with all | not
  · rw [all]
    exact texts
  · rw [not, not]
    rfl

/-- A line shows words that stand at its address, with what is written for these. -/
structure Line.Shows (words : List Int) (l : Line) : Prop where
  low : 0 ≤ l.address
  full : 1 ≤ l.words.length
  high : l.address + l.words.length ≤ words.length
  slice : Position.slice words l.address (l.address + l.words.length) = l.words
  decoded : ∀ k, decodeAt k words l.address = write k l.words ⟨l.text, l.words.length⟩
  halt : l.text = "halt" ↔ wordAt words l.address = .ok haltWord

theorem Line.shows_of_stands {w : Int} {ws : List Int} {text : String}
    (stand : w :: ws <+: words.drop a) (decodes : Decodes words a ⟨text, (w :: ws).length⟩)
    (halt : text = "halt" ↔ w = haltWord) :
    Line.Shows words ⟨a, w :: ws, text⟩ := by
  obtain ⟨at_a, inside⟩ := getElem?_of_stands stand
  have length := stand.length_le
  rw [List.length_drop] at length
  refine ⟨Int.natCast_nonneg a,
    Nat.succ_pos _, by dsimp only; omega, ?_, decodes.decodeAt_of_stands stand rfl, ?_⟩
  · exact Position.slice_of_stands inside stand
  · rw [halt, wordAt, Position.read_of_getElem? at_a, Except.mapError, Except.ok.injEq]

namespace Walk

theorem shows (walk : Walk words stop a lines) : ∀ l ∈ lines, l.Shows words := by
  induction walk with
  | passed _ => exact fun l hl => absurd hl List.not_mem_nil
  | halt _ stand =>
    have decodes := Decodes.halt (getElem?_of_stands stand).1
    exact List.forall_mem_singleton.mpr (Line.shows_of_stands stand decodes (iff_of_true rfl rfl))
  | onward _ other stand text decodes _ ih =>
    exact List.forall_mem_cons.mpr ⟨Line.shows_of_stands stand decodes (iff_of_false text other),
      ih⟩

theorem early (walk : Walk words stop a lines) : ∀ l ∈ lines, l.address < stop := by
  induction walk with
  | passed _ => exact fun l hl => absurd hl List.not_mem_nil
  | halt early _ => exact List.forall_mem_singleton.mpr early
  | onward early _ _ _ _ _ ih => exact List.forall_mem_cons.mpr ⟨early, ih⟩

theorem first {l : Line} (walk : Walk words stop a lines) (head : lines[0]? = some l) :
    l.address = a := by
  cases walk with
  | passed _ => cases head
  | halt _ _ => cases head; rfl
  | onward _ _ _ _ _ _ => cases head; rfl

theorem next {i : Nat} {l l' : Line} (walk : Walk words stop a lines) (here : lines[i]? = some l)
    (behind : lines[i + 1]? = some l') : l'.address = l.address + l.words.length := by
  induction walk generalizing i with
  | passed _ => cases here
  | halt _ _ => cases behind
  | onward _ _ _ _ _ rest ih =>
    cases i with
    | zero =>
      cases here
      exact rest.first behind
    | succ i => exact ih here behind

theorem stands (walk : Walk words stop a lines) :
    (lines.map Line.words).flatten <+: words.drop a := by
  induction walk with
  | passed _ => exact List.nil_prefix
  | halt _ stand => exact stand
  | onward _ _ stand _ _ _ ih =>
    -- The words of the line and those behind it make up what is left of the words.
    obtain ⟨rest, split⟩ := stand
    rw [← List.drop_drop, ← split, List.drop_left] at ih
    rw [← split]
    exact (List.prefix_append_right_inj _).mpr ih

theorem halt_last {i : Nat} {l : Line} (walk : Walk words stop a lines) (here : lines[i]? = some l)
    (text : l.text = "halt") : i + 1 = lines.length := by
  induction walk generalizing i with
  | passed _ => cases here
  | halt _ _ =>
    cases i with
    | zero => rfl
    | succ i => cases here
  | onward _ _ _ other _ _ ih =>
    cases i with
    | zero =>
      cases here
      exact absurd text other
    | succ i => exact congrArg Nat.succ (ih here)

/-- Behind the last line the range is over, unless the last line is the halt word. -/
theorem ends {l : Line} (walk : Walk words stop a lines) (last : lines.getLast? = some l) :
    l.text = "halt" ∨ stop ≤ l.address + l.words.length := by
  induction walk with
  | passed _ => cases last
  | halt _ _ => cases last; exact .inl rfl
  | @onward a w ws text lines _ _ _ _ _ rest ih =>
    cases rest with
    | passed stop => cases last; exact .inr stop
    | halt _ _ => exact ih last
    | onward _ _ _ _ _ _ => exact ih last

theorem nil_iff (walk : Walk words stop a lines) : lines = [] ↔ stop ≤ a := by
  cases walk with
  | passed stop => exact iff_of_true rfl stop
  | halt early _ => exact iff_of_false (List.cons_ne_nil _ _) (Int.not_le.mpr early)
  | onward early _ _ _ _ _ => exact iff_of_false (List.cons_ne_nil _ _) (Int.not_le.mpr early)

end Walk

/-- The lines cover a range of the words from its first address on, each word once. -/
structure Tiles (words : List Int) (start stop : Int) (lines : List Line) : Prop where
  first : ∀ l : Line, lines[0]? = some l → l.address = start
  next : ∀ (i : Nat) (l l' : Line), lines[i]? = some l → lines[i + 1]? = some l' →
    l'.address = l.address + l.words.length
  early : ∀ l ∈ lines, l.address < stop
  shows : ∀ l ∈ lines, l.Shows words
  joined : Position.slice words start (start + (lines.map Line.words).flatten.length) =
    (lines.map Line.words).flatten
  halt_last : ∀ (i : Nat) (l : Line), lines[i]? = some l → l.text = "halt" → i + 1 = lines.length
  ends : ∀ l : Line, lines.getLast? = some l → l.text = "halt" ∨ stop ≤ l.address + l.words.length
  empty : lines = [] ↔ start = stop

/-- A text from which the line is read: its address before a colon, its words with blanks between
them, and behind two blanks what is written for these. -/
def Line.ReadFrom (line : String) (l : Line) : Prop :=
  ∃ label column, line = label ++ ": " ++ column ++ "  " ++ l.text ∧
    Decimal label.toList l.address ∧
    List.Forall₂ Decimal (Text.words column.toList) l.words

theorem Line.readFrom_render (l : Line) : l.ReadFrom l.render := by
  refine ⟨_, _, rfl, decimal_zeroPadded 4 l.address, ?_⟩
  rw [Text.words_alignLeft]
  exact Text.decimal_words l.words

/-- The lines of a disassembly tile the range, and the lines are read from its texts. They are
written if all words that they show can be, and otherwise there is no disassembly. -/
theorem disassembly_tiles_range {start : Int} (low : 0 ≤ start) (order : start ≤ stop)
    (inside : stop ≤ words.length) :
    ∃ lines texts, Tiles words start stop lines ∧ List.Forall₂ Line.ReadFrom texts lines ∧
      (∀ k, linesBetween k words start stop = write k (lines.flatMap Line.words) lines) ∧
      ∀ k, disassemble k words start (some stop) = write k (lines.flatMap Line.words) texts := by
  obtain ⟨a, rfl⟩ := Int.eq_ofNat_of_zero_le low
  obtain ⟨lines, walk⟩ := exists_walk inside a
  have read : List.Forall₂ Line.ReadFrom (lines.map Line.render) lines :=
    List.forall₂_map_left_iff.mpr (List.forall₂_same.mpr fun l _ => l.readFrom_render)
  refine ⟨lines, _, ?_, read, walk.linesBetween_eq, walk.disassemble_eq⟩
  exact
    { first := fun _ => walk.first
      next := fun _ _ _ => walk.next
      early := walk.early
      shows := walk.shows
      joined := Position.slice_of_stands (by omega) walk.stands
      halt_last := fun _ _ => walk.halt_last
      ends := fun _ => walk.ends
      empty := walk.nil_iff.trans ⟨Int.le_antisymm order, fun same => Int.le_of_eq same.symm⟩ }

def haltOperands : List Int := [12, -1, 9, -1, 3, 99, 0, -1, 5]

def haltOperandsLines : List Line :=
  [⟨0, [12, -1], "jmp [-1]"⟩, ⟨2, [9, -1, 3], "move -1 %reg2"⟩, ⟨5, [99], ".word 99"⟩,
    ⟨6, [0, -1, 5], "add %?-1 %pc"⟩]

def haltOperandsTexts : List String :=
  ["0000: 12 -1             jmp [-1]", "0002: 9 -1 3            move -1 %reg2",
    "0005: 99                .word 99", "0006: 0 -1 5            add %?-1 %pc"]

/-- Halt words that are operands do not end a walk, and the last line may show words from
behind the range. -/
theorem halt_operands_are_walked_over :
    disassemble .limited haltOperands 0 (some 7) = .ok haltOperandsTexts ∧
      Tiles haltOperands 0 7 haltOperandsLines ∧
      List.Forall₂ Line.ReadFrom haltOperandsTexts haltOperandsLines := by
  have walked : linesBetween .limited haltOperands 0 7 = .ok haltOperandsLines := by decide +kernel
  have shown : disassemble .limited haltOperands 0 (some 7) = .ok haltOperandsTexts := by
    decide +kernel
  obtain ⟨lines, texts, tiles, read, listed, disassembled⟩ :=
    @disassembly_tiles_range haltOperands 7 0 (by decide) (by decide) (by decide)
  obtain rfl := eq_of_write ((listed .limited).symm.trans walked)
  obtain rfl := eq_of_write ((disassembled .limited).symm.trans shown)
  exact ⟨shown, tiles, read⟩

/-- The only word of these is too long to be written, and it has no disassembly. -/
theorem long_word_is_not_disassembled :
    ¬∃ texts, disassemble .limited [10 ^ 4300] 0 (some 1) = .ok texts := by
  have long := Numeral.not_isWritable_pow
  generalize (10 ^ 4300 : Int) = w at long
  have failed : decodeAt .limited [w] (0 : Nat) = .error (.numeral .unwritable) :=
    decodeAt_of_long rfl long
  have none : disassemble .limited [w] (0 : Nat) (some 1) = _ :=
    disassemble_of_error failed (by decide)
  rintro ⟨texts, disassembled⟩
  cases none.symm.trans disassembled

end BusMachine.Disassembly
