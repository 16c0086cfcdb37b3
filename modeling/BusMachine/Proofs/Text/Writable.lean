import Mathlib.Data.List.Induction
import Mathlib.Data.Nat.Digits.Defs
import BusMachine.Proofs.Text.Decimal

/-!
Writing and reading have one limit: whatever is read can be written, and whatever can be written is
read again as itself.
-/
namespace BusMachine

open Text

namespace Numeral

theorem digitValue?_lt {c : Char} {v : Nat} (h : digitValue? c = some v) : v < 10 := by
  simp only [digitValue?] at h
  split at h
  · split at h
    · have := Option.some.inj h
      omega
    · cases h
  · obtain ⟨z, found, rfl⟩ := Option.map_eq_some_iff.mp h
    have range := List.find?_some found
    simp only [Bool.and_eq_true, decide_eq_true_eq] at range
    omega

theorem value_append (ds : List Nat) (d : Nat) : value (ds ++ [d]) = 10 * value ds + d := by
  simp [value]

theorem value_lt (ds : List Nat) (small : ∀ d ∈ ds, d < 10) : value ds < 10 ^ ds.length := by
  induction ds using List.reverseRecOn with
  | nil => decide
  | append_singleton ds d ih =>
    have last : d < 10 := small d (by simp)
    have before := ih (fun e he => small e (List.mem_append_left _ he))
    rw [value_append, List.length_append, List.length_singleton, Nat.pow_succ]
    omega

theorem isWritable_iff_natAbs (n : Int) : isWritable n = true ↔ n.natAbs < 10 ^ digitLimit := by
  unfold isWritable writableBound
  generalize digitLimit = most
  exact decide_eq_true_iff

theorem isWritable_of_le {m n : Int} (le : m.natAbs ≤ n.natAbs) (h : isWritable n = true) :
    isWritable m = true :=
  (isWritable_iff_natAbs m).mpr (Nat.lt_of_le_of_lt le ((isWritable_iff_natAbs n).mp h))

theorem isWritable_of_small {n : Int} (small : n.natAbs < 10 ^ 19) : isWritable n = true :=
  (isWritable_iff_natAbs n).mpr
    (Nat.lt_of_lt_of_le small (Nat.pow_le_pow_right (by decide) (by decide)))

theorem isWritable_pow {n : Nat} : isWritable (10 ^ n) = true ↔ n < digitLimit := by
  rw [isWritable_iff_natAbs, Int.natAbs_pow]
  generalize digitLimit = most
  exact Nat.pow_lt_pow_iff_right (by decide)

theorem not_isWritable_pow : isWritable (10 ^ 4300) = false :=
  Bool.eq_false_iff.mpr fun writable => Nat.lt_irrefl digitLimit (isWritable_pow.mp writable)

theorem ten_le_pow : (10 : Int) ≤ 10 ^ 4300 := le_self_pow₀ (by decide) (by decide)

theorem isWritable_of_readUnsigned {text : String} {cs : List Char} {n : Nat}
    (read : readUnsigned text cs = .ok n) : isWritable n = true := by
  simp only [readUnsigned] at read
  split at read
  · cases read
  split at read
  · cases read
  next short =>
  split at read
  · cases read
  obtain rfl := Except.ok.inj read
  have small : ∀ d ∈ (cs.takeWhile isDigitOrMark).filterMap digitValue?, d < 10 := by
    intro d hd
    obtain ⟨c, -, hc⟩ := List.mem_filterMap.mp hd
    exact digitValue?_lt hc
  exact (isWritable_iff_natAbs _).mpr (Nat.lt_of_lt_of_le (value_lt _ small)
    (Nat.pow_le_pow_right (by decide) (Nat.le_of_not_lt short)))

theorem isWritable_of_signed {text : String} {cs : List Char} {n : Int} {sign : Int → Int}
    (keeps : ∀ k, (sign k).natAbs = k.natAbs)
    (read : Except.map sign (do return ((← readUnsigned text cs) : Int)) = .ok n) :
    isWritable n = true := by
  cases unsigned : readUnsigned text cs with
  | error e => rw [unsigned] at read; cases read
  | ok k =>
    rw [unsigned] at read
    obtain rfl := Except.ok.inj read
    rw [isWritable, keeps]
    exact isWritable_of_readUnsigned unsigned

theorem isWritable_of_read {text : String} {n : Int} (read : Numeral.read text = .ok n) :
    isWritable n = true := by
  simp only [Numeral.read] at read
  split at read
  · exact isWritable_of_signed Int.natAbs_neg read
  · exact isWritable_of_signed (fun _ => rfl) read
  · exact isWritable_of_signed (fun _ => rfl) read

end Numeral

theorem digitCount_toString (n : Int) :
    digitCount (toString n).toList = (Nat.toDigits 10 n.natAbs).length := by
  rw [Int.toString_eq_repr, Int.repr_eq_if]
  split
  · next sign =>
    have same : n.toNat = n.natAbs := by omega
    simpa [same] using (digits_toDigits n.natAbs).digitCount
  · next sign =>
    have same : (-n).toNat = n.natAbs := by omega
    have count := (digits_toDigits n.natAbs).digitCount
    simpa [same, digitCount_cons_of_not] using count

namespace Writing

variable {α : Type} {k : Writing} {ns : List Int}

theorem limited_allows (n : Int) : limited.allows n = Numeral.isWritable n := rfl

theorem allows_of_isWritable (k : Writing) {n : Int} (writable : Numeral.isWritable n = true) :
    k.allows n = true := by
  cases k with
  | limited => exact writable
  | total => rfl

theorem require_of_all (all : ∀ n ∈ ns, k.allows n = true) (made : α) :
    k.require ns made = .ok made :=
  if_pos (List.all_eq_true.mpr all)

theorem require_of_not {n : Int} (mem : n ∈ ns) (long : k.allows n = false) (made : α) :
    k.require ns made = .error .unwritable := by
  refine if_neg fun all => ?_
  rw [List.all_eq_true.mp all n mem] at long
  cases long

end Writing

namespace Numeral

theorem isWritable_iff (n : Int) :
    isWritable n = true ↔ digitCount (toString n).toList ≤ digitLimit := by
  rw [digitCount_toString]
  constructor
  · intro h
    exact Nat.toDigits_length 10 _ _ (by decide) ((isWritable_iff_natAbs n).mp h)
  · intro h
    have few := digitCount_toString n ▸ h
    have read := (decimal_toString n).read
    rw [if_neg (Nat.not_lt.mpr few)] at read
    exact isWritable_of_read read

theorem read_toString {n : Int} (h : isWritable n = true) : Numeral.read (toString n) = .ok n := by
  rw [(decimal_toString n).read, if_neg (Nat.not_lt.mpr ((isWritable_iff n).mp h))]

theorem read_toString_of_read {text : String} {n : Int} (read : Numeral.read text = .ok n) :
    Numeral.read (toString n) = .ok n :=
  read_toString (isWritable_of_read read)

end Numeral

end BusMachine
