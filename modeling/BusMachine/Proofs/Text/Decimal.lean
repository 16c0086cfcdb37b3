import BusMachine.Proofs.Text.Blanks
import BusMachine.Text.Numeral

/-!
Decimal texts: ASCII digits after an optional sign. They stand for an integer, reading one of not
too many digits yields that integer, and the shortest decimal text of an integer reads as it.
-/
namespace BusMachine

open Text

def Digits (ds : List Char) : Prop := ds ≠ [] ∧ ∀ d ∈ ds, d.isDigit = true

/-- ASCII digits after an optional sign, with the integer that they stand for. -/
inductive Decimal : List Char → Int → Prop where
  | plain {ds : List Char} : Digits ds → Decimal ds (Nat.ofDigitChars 10 ds 0)
  | plus {ds : List Char} : Digits ds → Decimal ('+' :: ds) (Nat.ofDigitChars 10 ds 0)
  | minus {ds : List Char} : Digits ds → Decimal ('-' :: ds) (-(Nat.ofDigitChars 10 ds 0 : Int))

def digitCount (cs : List Char) : Nat := cs.countP Char.isDigit

theorem isDigit_range {d : Char} (h : d.isDigit = true) : 48 ≤ d.toNat ∧ d.toNat ≤ 57 :=
  Char.isDigit_iff_toNat.mp h

theorem digitValue?_of_isDigit {d : Char} (h : d.isDigit = true) :
    digitValue? d = some (d.toNat - 48) := by
  have range := isDigit_range h
  have ascii : d.toNat < 128 := by omega
  simp [digitValue?, ascii, range]

theorem isDigit_ne {d c : Char} (h : d.isDigit = true) (other : c.isDigit = false) : d ≠ c := by
  rintro rfl
  rw [h] at other
  exact Bool.noConfusion other

theorem isMargin_of_isDigit {d : Char} (h : d.isDigit = true) : Numeral.isMargin d = false := by
  have range := isDigit_range h
  simp [Numeral.isMargin, isBlank]
  omega

theorem isMargin_plus : Numeral.isMargin '+' = false := by decide

theorem isMargin_minus : Numeral.isMargin '-' = false := by decide

namespace Digits

variable {ds : List Char}

theorem isDigitOrMark (h : Digits ds) : ∀ d ∈ ds, Numeral.isDigitOrMark d = true := by
  intro d hd
  simp [Numeral.isDigitOrMark, digitValue?_of_isDigit (h.2 d hd)]

theorem takeWhile (h : Digits ds) : ds.takeWhile Numeral.isDigitOrMark = ds :=
  List.takeWhile_eq_self_iff.mpr h.isDigitOrMark

theorem dropWhile (h : Digits ds) : ds.dropWhile Numeral.isDigitOrMark = [] :=
  List.dropWhile_eq_nil_iff.mpr h.isDigitOrMark

theorem wellGrouped (h : Digits ds) : Numeral.wellGrouped ds = true := by
  have uncut : splitAtEach (· == '_') ds = [ds] :=
    splitAtEach_of_none (fun c hc => beq_false_of_ne (isDigit_ne (h.2 c hc) rfl))
  simp [Numeral.wellGrouped, uncut, h.1]

theorem filterMap (h : Digits ds) : ds.filterMap digitValue? = ds.map (fun d => d.toNat - 48) := by
  have values : ∀ cs : List Char, (∀ d ∈ cs, d.isDigit = true) →
      cs.filterMap digitValue? = cs.map (fun d => d.toNat - 48) := by
    intro cs all
    induction cs with
    | nil => rfl
    | cons c cs ih =>
      rw [List.filterMap_cons, digitValue?_of_isDigit (all c (List.mem_cons_self ..)),
        List.map_cons, ih (fun d hd => all d (List.mem_cons_of_mem _ hd))]
  exact values ds h.2

theorem digitCount (h : Digits ds) : digitCount ds = ds.length :=
  List.countP_eq_length.mpr h.2

theorem readUnsigned (h : Digits ds) (text : String) :
    Numeral.readUnsigned text ds =
      if Numeral.digitLimit < ds.length then .error (.tooLong ds.length)
      else .ok (Nat.ofDigitChars 10 ds 0) := by
  simp only [Numeral.readUnsigned, h.takeWhile, h.dropWhile, h.wellGrouped, h.filterMap,
    List.length_map]
  simp [Numeral.value, List.foldl_map, Nat.ofDigitChars_eq_foldl]

end Digits

theorem digitCount_cons_of_not {c : Char} {cs : List Char} (sign : c.isDigit = false) :
    digitCount (c :: cs) = digitCount cs :=
  List.countP_cons_of_neg (by simp [sign])

namespace Decimal

variable {text : String} {n : Int}

theorem read_plain {ds : List Char} (digits : Digits ds) (spelled : text.toList = ds) :
    Numeral.read text = (Numeral.readUnsigned text ds).map (fun n => (n : Int)) := by
  obtain ⟨d, rest, rfl⟩ := List.exists_cons_of_ne_nil digits.1
  have first : d.isDigit = true := digits.2 d (List.mem_cons_self ..)
  have noMinus : d ≠ '-' := isDigit_ne first rfl
  have noPlus : d ≠ '+' := isDigit_ne first rfl
  rw [Numeral.read, spelled, List.dropWhile_cons, isMargin_of_isDigit first]
  simp only [Bool.false_eq_true, if_false]
  split
  · next eq => exact absurd (List.cons.inj eq).1 noMinus
  · next eq => exact absurd (List.cons.inj eq).1 noPlus
  · rfl

theorem read (h : Decimal text.toList n) :
    Numeral.read text =
      if Numeral.digitLimit < digitCount text.toList then .error (.tooLong (digitCount text.toList))
      else .ok n := by
  -- The sign has to be seen before the text can be read.
  generalize spelled : text.toList = cs at h
  cases h with
  | plain digits =>
    rw [read_plain digits spelled, digits.readUnsigned text, digits.digitCount]
    split <;> rfl
  | plus digits =>
    rw [digitCount_cons_of_not rfl, digits.digitCount]
    simp only [Numeral.read, spelled, List.dropWhile_cons, isMargin_plus, Bool.false_eq_true,
      if_false]
    rw [digits.readUnsigned text]
    split <;> rfl
  | minus digits =>
    rw [digitCount_cons_of_not rfl, digits.digitCount]
    simp only [Numeral.read, spelled, List.dropWhile_cons, isMargin_minus, Bool.false_eq_true,
      if_false]
    rw [digits.readUnsigned text]
    split <;> rfl

theorem eq_of_read {m : Int} (h : Decimal text.toList n)
    (ok : Numeral.read text = .ok m) : m = n := by
  rw [h.read] at ok
  split at ok
  · cases ok
  · exact (Except.ok.inj ok).symm

end Decimal

theorem Decimal.unique {cs : List Char} {n m : Int} (h : Decimal cs n)
    (h' : Decimal cs m) : n = m := by
  have unsigned : ∀ {s : Char} {ds : List Char}, s.isDigit = false → ¬Digits (s :: ds) :=
    fun sign digits =>
    Bool.noConfusion (sign.symm.trans (digits.2 _ (List.mem_cons_self ..)))
  cases h with
  | plain digits =>
    cases h' with
    | plain _ => rfl
    | plus _ | minus _ => exact absurd digits (unsigned rfl)
  | plus _ =>
    cases h' with
    | plain digits => exact absurd digits (unsigned rfl)
    | plus _ => rfl
  | minus _ =>
    cases h' with
    | plain digits => exact absurd digits (unsigned rfl)
    | minus _ => rfl

theorem Decimal.head {cs : List Char} {n : Int} (h : Decimal cs n) :
    ∃ c rest, cs = c :: rest ∧ (c.isDigit = true ∨ c = '+' ∨ c = '-') := by
  cases h with
  | plain digits =>
    obtain ⟨c, rest, rfl⟩ := List.exists_cons_of_ne_nil digits.1
    exact ⟨c, rest, rfl, .inl (digits.2 c (List.mem_cons_self ..))⟩
  | plus _ => exact ⟨_, _, rfl, .inr (.inl rfl)⟩
  | minus _ => exact ⟨_, _, rfl, .inr (.inr rfl)⟩

theorem digits_toDigits (n : Nat) : Digits (Nat.toDigits 10 n) :=
  ⟨Nat.toDigits_ne_nil, fun _ hd => Nat.isDigit_of_mem_toDigits (by decide) (by decide) hd⟩

theorem decimal_toString (n : Int) : Decimal (toString n).toList n := by
  rw [Int.toString_eq_repr, Int.repr_eq_if]
  split
  · next sign =>
    have h := Decimal.plain (digits_toDigits n.toNat)
    rw [Nat.ofDigitChars_ten_toDigits, Int.toNat_of_nonneg sign] at h
    simpa using h
  · next sign =>
    have h := Decimal.minus (digits_toDigits (-n).toNat)
    rw [Nat.ofDigitChars_ten_toDigits, Int.toNat_of_nonneg (by omega), Int.neg_neg] at h
    simpa using h

theorem toString_injective {n m : Int} (same : toString n = toString m) : n = m :=
  (decimal_toString n).unique (same ▸ decimal_toString m)

end BusMachine
