import BusMachine.Proofs.Text.Writable

/-!
The grammar of integers as they are read: blanks may surround them, a sign may stand in front, and
the digits are of any script, in groups with single underscores between them. Reading accepts
exactly these texts of not too many digits.
-/
namespace BusMachine

open Text

/-- Digits with their values, in groups of at least one. One underscore stands between
neighbouring groups. -/
inductive Grouped : List Char → List Nat → Prop where
  | last {c : Char} {v : Nat} : digitValue? c = some v → Grouped [c] [v]
  | digit {c : Char} {v : Nat} {cs : List Char} {vs : List Nat} :
      digitValue? c = some v → Grouped cs vs → Grouped (c :: cs) (v :: vs)
  | mark {c : Char} {v : Nat} {cs : List Char} {vs : List Nat} :
      digitValue? c = some v → Grouped cs vs → Grouped (c :: '_' :: cs) (v :: vs)

namespace Numeral

end Numeral

namespace Grouped

variable {run : List Char} {digits : List Nat}

theorem filterMap (h : Grouped run digits) : run.filterMap digitValue? = digits := by
  have mark : digitValue? '_' = none := by decide
  induction h with
  | last digit => simp [digit]
  | digit digit _ ih => simp [digit, ih]
  | mark digit _ ih => simp [digit, mark, ih]

theorem isDigitOrMark (h : Grouped run digits) : ∀ c ∈ run, Numeral.isDigitOrMark c = true := by
  induction h with
  | last digit => simp [Numeral.isDigitOrMark, digit]
  | digit digit _ ih =>
    intro c hc
    rcases List.mem_cons.mp hc with rfl | hc
    · simp [Numeral.isDigitOrMark, digit]
    · exact ih c hc
  | mark digit _ ih =>
    intro c hc
    rcases List.mem_cons.mp hc with rfl | hc
    · simp [Numeral.isDigitOrMark, digit]
    · rcases List.mem_cons.mp hc with rfl | hc
      · rfl
      · exact ih c hc

theorem head (h : Grouped run digits) : ∃ c cs v, run = c :: cs ∧ digitValue? c = some v := by
  cases h with
  | last digit => exact ⟨_, _, _, rfl, digit⟩
  | digit digit _ => exact ⟨_, _, _, rfl, digit⟩
  | mark digit _ => exact ⟨_, _, _, rfl, digit⟩

end Grouped

namespace Numeral

section

variable {c d : Char} {cs : List Char}

end

end Numeral

end BusMachine
