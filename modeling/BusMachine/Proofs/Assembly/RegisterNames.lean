import BusMachine.Proofs.Assembly.Recognition
import BusMachine.Datapath.Register

/-!
Letter case of names. A register is named in any letter case, and on names raising and lowering the
case lose nothing against each other.
-/
namespace BusMachine

open Text

theorem exists_ascii {c : Char} (ascii : c.toNat < 128) : ∃ n : Fin 128, Char.ofNat n = c :=
  ⟨⟨c.toNat, ascii⟩, Char.ofNat_toNat c⟩

theorem toLower_toUpper {c : Char} (ascii : c.toNat < 128) : c.toUpper.toLower = c.toLower := by
  have table : ∀ n : Fin 128, (Char.ofNat n).toUpper.toLower = (Char.ofNat n).toLower := by decide
  obtain ⟨n, rfl⟩ := exists_ascii ascii
  exact table n

theorem toLower_of_not_ascii {c : Char} (other : ¬ c.toNat < 128) : c.toLower = c := by
  have upper : ¬ (c.val ≥ 'A'.val ∧ c.val ≤ 'Z'.val) := by
    simp only [Char.toNat, UInt32.le_iff_toNat_le, ge_iff_le, not_and] at other ⊢
    have last : 'Z'.val.toNat = 90 := rfl
    omega
  unfold Char.toLower
  exact dif_neg upper

/-- What does not tell an ASCII character from its lower case tells no character from it. -/
theorem at_toLower {α : Type} {f : Char → α}
    (table : ∀ n : Fin 128, f (Char.ofNat n).toLower = f (Char.ofNat n)) (c : Char) :
    f c.toLower = f c := by
  by_cases ascii : c.toNat < 128
  · obtain ⟨n, rfl⟩ := exists_ascii ascii
    exact table n
  · rw [toLower_of_not_ascii ascii]

theorem isName_lower (cs : List Char) : Statement.isName (lower cs) = Statement.isName cs := by
  have letter := at_toLower (f := Statement.isLetter) (by decide)
  have nameChar := at_toLower (f := Statement.isNameChar) (by decide)
  cases cs with
  | nil => rfl
  | cons c cs => simp [lower, Statement.isName, List.all_map, Function.comp_def, letter, nameChar]

theorem upper_lower (cs : List Char) : upper (lower cs) = upper cs := by
  have table : ∀ n : Fin 128, upperChar (Char.ofNat n).toLower = upperChar (Char.ofNat n) := by
    decide
  simp only [upper, lower, List.flatMap_map, at_toLower table]

theorem lower_upper {cs : List Char} (ascii : ∀ c ∈ cs, c.toNat < 128) :
    lower (upper cs) = lower cs := by
  induction cs with
  | nil => rfl
  | cons c cs ih =>
    have first : upperChar c = [c.toUpper] := if_pos (ascii c (List.mem_cons_self ..))
    have rest := ih (fun d hd => ascii d (List.mem_cons_of_mem _ hd))
    rw [lower, upper] at rest
    rw [upper, List.flatMap_cons, first, List.singleton_append, lower, List.map_cons, rest,
      toLower_toUpper (ascii c (List.mem_cons_self ..))]
    rfl

theorem Register.lowerCase_name (r : Register) : lowerCase r.name = r.lowerName := by
  cases r <;> decide

theorem Register.lowerName_of_named? {name : String} {r : Register}
    (identifier : Grammar.Identifier name) (h : Register.named? name = some r) :
    lowerCase name = r.lowerName := by
  have ascii : ∀ c ∈ name.toList, c.toNat < 128 := by
    intro c hc
    have range := Grammar.isNameChar_range (identifier.alphanum c hc)
    omega
  have raised : r.name = upperCase name := by
    simpa using List.find?_some h
  rw [← r.lowerCase_name, raised, upperCase, lowerCase, lowerCase, String.toList_ofList,
    lower_upper ascii]

theorem Register.named?_lowerCase (name : String) :
    Register.named? (lowerCase name) = Register.named? name := by
  simp only [Register.named?, upperCase, lowerCase, String.toList_ofList, upper_lower]

end BusMachine
