import BusMachine.Proofs.Text.PlainText
import BusMachine.Proofs.Text.Writable
import BusMachine.Text.Column

/-!
Numbers in columns. The blanks around a number are no part of any word, and the zeros in front of it
do not change the integer that is read.
-/
namespace BusMachine

open Text

namespace Text

theorem words_replicate (n : Nat) (cs : List Char) :
    words (List.replicate n ' ' ++ cs) = words cs := by
  induction n with
  | zero => rfl
  | succ n ih =>
    rw [List.replicate_succ, List.cons_append, ← List.nil_append (' ' :: _), words_append rfl, ih]
    rfl

theorem words_alignRight (width : Nat) (s : String) :
    words (alignRight width s).toList = words s.toList := by
  rw [alignRight, String.toList_ofList, List.leftpad, words_replicate]

theorem words_append_replicate (cs : List Char) (n : Nat) :
    words (cs ++ List.replicate n ' ') = words cs := by
  cases n with
  | zero => rw [List.replicate_zero, List.append_nil]
  | succ n =>
    have none : words (List.replicate n ' ') = [] := by
      rw [← List.append_nil (List.replicate n ' '), words_replicate]
      rfl
    rw [List.replicate_succ, words_append rfl, none, List.append_nil]

theorem words_alignLeft (width : Nat) (s : String) :
    words (alignLeft width s).toList = words s.toList := by
  rw [alignLeft, String.toList_ofList, List.rightpad, words_append_replicate]

theorem words_toString (n : Int) : words (toString n).toList = [(toString n).toList] :=
  words_of_not_blank (decimal_toString n).ne_nil fun c hc =>
    isBlank_of_isPlain ((decimal_toString n).isPlain c hc)

theorem eq_blank_or_mem {width : Nat} {s : String} {c : Char}
    (mem : c ∈ (alignRight width s).toList) :
    c = ' ' ∨ c ∈ s.toList := by
  rw [alignRight, String.toList_ofList, List.leftpad, List.mem_append] at mem
  exact mem.imp List.eq_of_mem_replicate id

/-- What holds of a separator and of the pieces holds of all that is put together of them. -/
theorem forall_mem_intercalate {p : Char → Prop} {sep : List Char} {ls : List (List Char)}
    (between : ∀ c ∈ sep, p c) (each : ∀ l ∈ ls, ∀ c ∈ l, p c) : ∀ c ∈ sep.intercalate ls, p c := by
  induction ls with
  | nil => exact fun c mem => absurd mem List.not_mem_nil
  | cons l ls ih =>
    have first := each l (List.mem_cons_self ..)
    have rest := ih (fun k hk => each k (List.mem_cons_of_mem l hk))
    cases ls with
    | nil => rwa [List.intercalate_singleton]
    | cons l' ls =>
      rw [List.intercalate_cons_cons, List.append_assoc]
      intro c mem
      rcases List.mem_append.mp mem with mem | mem
      · exact first c mem
      · exact (List.mem_append.mp mem).elim (between c) (rest c)

theorem words_intercalate (ls : List (List Char)) :
    words ([' '].intercalate ls) = ls.flatMap words := by
  induction ls with
  | nil => rfl
  | cons l ls ih =>
    cases ls with
    | nil => rw [List.intercalate_singleton, List.flatMap_singleton]
    | cons l' ls =>
      rw [List.flatMap_cons, List.intercalate_cons_cons, List.append_assoc, List.singleton_append,
        words_append rfl, ih]

/-- Integers are read from the words of a text in which they stand with blanks between them. -/
theorem decimal_words (ns : List Int) :
    List.Forall₂ Decimal (words (" ".intercalate (ns.map toString)).toList) ns := by
  have blank : " ".toList = [' '] := rfl
  have alone : ∀ n ∈ ns, words ((String.toList ∘ toString) n) = [(toString n).toList] :=
    fun n _ => words_toString n
  rw [String.toList_intercalate, blank, words_intercalate, List.map_map, List.flatMap_map,
    List.flatMap_congr alone, ← List.map_eq_flatMap]
  exact List.forall₂_map_left_iff.mpr (List.forall₂_same.mpr fun n _ => decimal_toString n)

end Text

theorem Digits.leftpad {ds : List Char} (h : Digits ds) (width : Nat) :
    Digits (ds.leftpad width '0') := by
  refine ⟨List.append_ne_nil_of_right_ne_nil _ h.1, fun d hd => ?_⟩
  rcases List.mem_append.mp hd with pad | digit
  · rw [List.eq_of_mem_replicate pad]
    rfl
  · exact h.2 d digit

theorem ofDigitChars_leftpad (width : Nat) (ds : List Char) :
    Nat.ofDigitChars 10 (ds.leftpad width '0') 0 = Nat.ofDigitChars 10 ds 0 := by
  have zeros : ∀ k, Nat.ofDigitChars 10 (List.replicate k '0') 0 = 0 := by
    intro k
    induction k with
    | zero => rfl
    | succ k ih =>
      rw [List.replicate_succ, Nat.ofDigitChars_eq_foldl, List.foldl_cons]
      rwa [Nat.ofDigitChars_eq_foldl] at ih
  rw [List.leftpad, Nat.ofDigitChars_append, zeros]

theorem decimal_zeroPadded (width : Nat) (n : Int) : Decimal (zeroPadded width n).toList n := by
  have digits := digits_toDigits n.natAbs
  rw [zeroPadded]
  split
  · next negative =>
    have h := Decimal.minus (digits.leftpad (width - 1))
    rw [ofDigitChars_leftpad, Nat.ofDigitChars_ten_toDigits] at h
    have same : -(n.natAbs : Int) = n := by omega
    rwa [same, ← String.toList_ofList (l := '-' :: _)] at h
  · next sign =>
    have h := Decimal.plain (digits.leftpad width)
    rw [ofDigitChars_leftpad, Nat.ofDigitChars_ten_toDigits,
      Int.natAbs_of_nonneg (Int.not_lt.mp sign)] at h
    rwa [String.toList_ofList]

theorem digitCount_zeroPadded (width : Nat) (n : Int) :
    digitCount (zeroPadded width n).toList ≤ max width (Nat.toDigits 10 n.natAbs).length := by
  have digits := digits_toDigits n.natAbs
  rw [zeroPadded]
  split
  · rw [String.toList_ofList, digitCount_cons_of_not rfl, (digits.leftpad _).digitCount,
      List.length_leftpad]
    omega
  · rw [String.toList_ofList, (digits.leftpad _).digitCount, List.length_leftpad]

/-- A number with zeros in front is read as it is, if neither the number nor the column is
too wide. -/
theorem read_zeroPadded {width : Nat} {n : Int} (narrow : width ≤ Numeral.digitLimit)
    (writable : Numeral.isWritable n = true) : Numeral.read (zeroPadded width n) = .ok n := by
  have few := (Numeral.isWritable_iff n).mp writable
  rw [digitCount_toString] at few
  have count := digitCount_zeroPadded width n
  rw [(decimal_zeroPadded width n).read, if_neg (by omega)]

end BusMachine
