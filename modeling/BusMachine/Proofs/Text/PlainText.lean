import BusMachine.Proofs.Text.Decimal
import BusMachine.Proofs.Text.Newlines

/-!
Plain text: ASCII without control characters, one line feed at the end of each line. Nothing is lost
when it is cut into lines and when it is trimmed. Decimals are plain.
-/
namespace BusMachine

namespace Text

/-- A visible character of ASCII. -/
def isPlain (c : Char) : Bool := 33 ≤ c.toNat && c.toNat < 127

variable {c : Char} {l cs : List Char}

theorem isPlain_iff : isPlain c = true ↔ 33 ≤ c.toNat ∧ c.toNat < 127 := by
  simp [isPlain]

theorem isBlank_of_isPlain (h : isPlain c = true) : isBlank c = false := by
  have range := isPlain_iff.mp h
  simp [isBlank]
  omega

theorem endsLine_of_isPlain (h : isPlain c = true) : endsLine c = false := by
  have range := isPlain_iff.mp h
  simp [endsLine]
  omega

theorem lines_line (plain : ∀ c ∈ l, isPlain c = true) (rest : List Char) :
    lines (l ++ '\n' :: rest) = l :: lines rest :=
  lines_cut (fun c hc => endsLine_of_isPlain (plain c hc)) rest

theorem trim_of_not_blank (h : ∀ c ∈ cs, isBlank c = false) : trim cs = cs := by
  have stays : ∀ ds : List Char, (∀ d ∈ ds, isBlank d = false) → ds.dropWhile isBlank = ds := by
    rintro (_ | ⟨d, ds⟩) hd
    · rfl
    · rw [List.dropWhile_cons, hd d (List.mem_cons_self ..)]
      rfl
  rw [trim, trimOf, trimEndOf, stays cs h, stays _ (fun d hd => h d (List.mem_reverse.mp hd)),
    List.reverse_reverse]

end Text

open Text

theorem isPlain_of_isDigit {c : Char} (h : c.isDigit = true) : isPlain c = true := by
  have range := isDigit_range h
  exact isPlain_iff.mpr (by omega)

namespace Decimal

variable {cs : List Char} {n : Int}

theorem ne_nil (h : Decimal cs n) : cs ≠ [] := by
  cases h with
  | plain digits => exact digits.1
  | plus _ | minus _ => exact List.cons_ne_nil _ _

theorem isPlain (h : Decimal cs n) : ∀ c ∈ cs, isPlain c = true := by
  have signed : ∀ {s : Char} {ds : List Char}, Text.isPlain s = true → Digits ds →
      ∀ c ∈ s :: ds, Text.isPlain c = true := by
    intro s ds sign digits c hc
    rcases List.mem_cons.mp hc with rfl | hc
    · exact sign
    · exact isPlain_of_isDigit (digits.2 c hc)
  cases h with
  | plain digits => exact fun c hc => isPlain_of_isDigit (digits.2 c hc)
  | plus digits => exact signed (by decide) digits
  | minus digits => exact signed (by decide) digits

end Decimal

end BusMachine
