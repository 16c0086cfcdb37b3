import BusMachine.Executable

/-!
Executable text as a grammar of lines: blank lines, and lines that are one word each. Reading
succeeds exactly on such lines, and otherwise names the first line that is neither.
-/
namespace BusMachine.Executable

open Text

/-- The lines hold these words in order, each on a line of its own, and blank lines between them. -/
inductive Spells : List (List Char) → List Int → Prop where
  | nil : Spells [] []
  | blank {l : List Char} {ls : List (List Char)} {words : List Int} : trim l = [] →
      Spells ls words →
      Spells (l :: ls) words
  | word {l : List Char} {ls : List (List Char)} {w : Int} {words : List Int} : trim l ≠ [] →
      Numeral.read (String.ofList (trim l)) = .ok w → Spells ls words →
        Spells (l :: ls) (w :: words)

/-- Neither blank nor a word. -/
def Unreadable (l : List Char) : Prop :=
  trim l ≠ [] ∧ ∀ w, Numeral.read (String.ofList (trim l)) ≠ .ok w

variable {l : List Char} {ls before after : List (List Char)} {words : List Int} {n : Nat}

theorem readLines_of_blank (n : Nat) (ls : List (List Char)) (blank : trim l = []) :
    readLines n (l :: ls) = readLines (n + 1) ls := by
  rw [readLines, blank]
  rfl

theorem readLines_of_word (n : Nat) (ls : List (List Char)) {w : Int} (full : trim l ≠ [])
    (read : Numeral.read (String.ofList (trim l)) = .ok w) :
    readLines n (l :: ls) = (readLines (n + 1) ls).map (w :: ·) := by
  have filled : (trim l).isEmpty = false := by simpa using full
  simp only [readLines, filled, read, Bool.false_eq_true, if_false]

theorem readLines_of_unreadable (n : Nat) (ls : List (List Char)) (bad : Unreadable l) :
    readLines n (l :: ls) = .error ⟨n, String.ofList (trim l)⟩ := by
  have filled : (trim l).isEmpty = false := by simpa using bad.1
  cases read : Numeral.read (String.ofList (trim l)) with
  | ok w => exact absurd read (bad.2 w)
  | error e => simp only [readLines, filled, read, Bool.false_eq_true, if_false]

theorem Spells.readLines (h : Spells ls words) : readLines n ls = .ok words := by
  induction h generalizing n with
  | nil => rfl
  | blank blank _ ih => rw [readLines_of_blank n _ blank, ih]
  | word full read _ ih =>
    rw [readLines_of_word n _ full read, ih]
    rfl

theorem Spells.readLines_unreadable (h : Spells before words) (bad : Unreadable l) :
    Executable.readLines n (before ++ l :: after) =
      .error ⟨n + before.length, String.ofList (trim l)⟩ := by
  induction h generalizing n with
  | nil => exact readLines_of_unreadable n after bad
  | blank blank _ ih =>
    rw [List.cons_append, readLines_of_blank n _ blank, ih, List.length_cons, Nat.add_right_comm,
      Nat.add_assoc]
  | word full read _ ih =>
    rw [List.cons_append, readLines_of_word n _ full read, ih, List.length_cons, Nat.add_right_comm,
      Nat.add_assoc]
    rfl

theorem Spells.append {ls' : List (List Char)} {words' : List Int} (h : Spells ls words)
    (h' : Spells ls' words') :
    Spells (ls ++ ls') (words ++ words') := by
  induction h with
  | nil => exact h'
  | blank blank _ ih => exact .blank blank ih
  | word full read _ ih => exact .word full read ih

theorem spells_or_unreadable (ls : List (List Char)) :
    (∃ words, Spells ls words) ∨
      ∃ before words l after, ls = before ++ l :: after ∧ Spells before words ∧ Unreadable l := by
  induction ls with
  | nil => exact .inl ⟨[], .nil⟩
  | cons l ls ih =>
    by_cases blank : trim l = []
    · rcases ih with ⟨words, spells⟩ | ⟨before, words, k, after, rfl, spells, bad⟩
      · exact .inl ⟨words, .blank blank spells⟩
      · exact .inr ⟨l :: before, words, k, after, rfl, .blank blank spells, bad⟩
    · cases read : Numeral.read (String.ofList (trim l)) with
      | error e => exact .inr ⟨[], [], l, ls, rfl, .nil, blank, fun w => by simp [read]⟩
      | ok w =>
        rcases ih with ⟨words, spells⟩ | ⟨before, words, k, after, rfl, spells, bad⟩
        · exact .inl ⟨w :: words, .word blank read spells⟩
        · exact .inr ⟨l :: before, w :: words, k, after, rfl, .word blank read spells, bad⟩

end BusMachine.Executable
