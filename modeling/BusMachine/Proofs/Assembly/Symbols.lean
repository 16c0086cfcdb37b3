import Mathlib.Data.List.Induction
import Mathlib.Data.List.Nodup
import BusMachine.Proofs.Assembly.Linking

/-!
What names stand for. Of the numbers put for a name a table keeps the last. So a name that several
variables have is that of the last of them, and a label is found where no variable has its name.
-/
namespace BusMachine

namespace SymbolTable

variable {t : SymbolTable} {name key : String} {v : Int}

theorem lookup_cons (e : String × Int) (t : SymbolTable) :
    List.lookup key (e :: t) = if key = e.1 then some e.2 else List.lookup key t := by
  obtain ⟨name, v⟩ := e
  rw [List.lookup_cons]
  split
  · next same => rw [if_pos (eq_of_beq same)]
  · next other => rw [if_neg (ne_of_beq_false other)]

theorem lookup_replace (t : SymbolTable) :
    (t.map (fun e => if e.1 == name then (name, v) else e)).lookup key =
      if key = name then (t.lookup key).map (fun _ => v) else t.lookup key := by
  induction t with
  | nil => simp
  | cons e t ih =>
    rw [List.map_cons, lookup_cons, ih, lookup_cons]
    by_cases same : e.1 = name
    · by_cases sought : key = name <;> simp [same, sought]
    · by_cases sought : key = e.1
      · have apart : key ≠ name := fun eq => same (sought.symm.trans eq)
        simp [sought, same]
      · simp [same, sought]

theorem lookup_put (t : SymbolTable) :
    (t.put name v).lookup key = if key = name then some v else t.lookup key := by
  rw [put]
  split
  · next known =>
    rw [lookup_replace]
    split
    · next sought =>
      cases found : t.lookup key with
      | some w => rfl
      | none =>
        obtain ⟨e, he, same⟩ := List.any_eq_true.mp known
        have apart := List.lookup_eq_none_iff.mp found e he
        simp [sought, eq_of_beq same] at apart
    · rfl
  · next fresh =>
    rw [List.lookup_append, lookup_cons, List.lookup_nil]
    split
    · next sought =>
      have none : t.lookup key = none := by
        rw [List.lookup_eq_none_iff]
        intro e he
        rw [bne_iff_ne, sought]
        rintro rfl
        exact fresh (List.any_eq_true.mpr ⟨e, he, beq_self_eq_true _⟩)
      rw [none, Option.none_or]
    · rw [Option.or_none]

theorem lookup_putAll (es : List (String × Int)) (t : SymbolTable) :
    (t.putAll es).lookup key = (es.reverse.lookup key).or (t.lookup key) := by
  induction es generalizing t with
  | nil => rfl
  | cons e es ih =>
    have step : t.putAll (e :: es) = (t.put e.1 e.2).putAll es := rfl
    rw [step, ih, lookup_put, List.reverse_cons, List.lookup_append, lookup_cons, List.lookup_nil,
      Option.or_assoc]
    split <;> rfl

theorem nodup_put (nodup : (t.map Prod.fst).Nodup) : ((t.put name v).map Prod.fst).Nodup := by
  rw [put]
  split
  · have kept : (t.map (fun e => if e.1 == name then (name, v) else e)).map Prod.fst =
      t.map Prod.fst := by
      rw [List.map_map]
      refine List.map_congr_left fun e _ => ?_
      rw [Function.comp_apply]
      split
      · next same => exact (eq_of_beq same).symm
      · rfl
    rwa [kept]
  · next fresh =>
    rw [List.map_append, List.nodup_append]
    refine ⟨nodup, List.nodup_singleton _, ?_⟩
    rintro key mem _ last rfl
    rw [List.map_cons, List.map_nil, List.mem_singleton] at last
    obtain ⟨e, he, rfl⟩ := List.mem_map.mp mem
    exact fresh (List.any_eq_true.mpr ⟨e, he, beq_iff_eq.mpr last⟩)

theorem nodup_putAll (es : List (String × Int)) (nodup : (t.map Prod.fst).Nodup) :
    ((t.putAll es).map Prod.fst).Nodup := by
  induction es generalizing t with
  | nil => exact nodup
  | cons e es ih => exact ih (nodup_put nodup)

theorem lookup_of_mem (nodup : (t.map Prod.fst).Nodup) (mem : (key, v) ∈ t) :
    t.lookup key = some v := by
  induction t with
  | nil => cases mem
  | cons e t ih =>
    rw [List.map_cons, List.nodup_cons] at nodup
    rw [lookup_cons]
    rcases List.mem_cons.mp mem with rfl | mem
    · exact if_pos rfl
    · rw [if_neg, ih nodup.2 mem]
      rintro rfl
      exact nodup.1 (List.mem_map.mpr ⟨_, mem, rfl⟩)

theorem lookup_reverse (nodup : (t.map Prod.fst).Nodup) : t.reverse.lookup key = t.lookup key := by
  have nodup' : (t.reverse.map Prod.fst).Nodup := by rwa [List.map_reverse, List.nodup_reverse]
  ext v
  constructor
  · exact fun found => lookup_of_mem nodup (List.mem_reverse.mp (mem_of_lookup found))
  · exact fun found => lookup_of_mem nodup' (List.mem_reverse.mpr (mem_of_lookup found))

end SymbolTable

namespace ObjectProgram

variable {p : ObjectProgram} {size : Int} {name : String} {v : Int}

theorem addressesFrom_snoc (top : Int) (names : List String) (last : String) :
    addressesFrom top (names ++ [last]) = addressesFrom top names ++
      [(last, top - names.length)] := by
  induction names generalizing top with
  | nil => simp [addressesFrom]
  | cons first names ih =>
    rw [List.cons_append, addressesFrom, ih, addressesFrom, List.cons_append, List.length_cons,
      Int.natCast_succ, Int.sub_sub, Int.add_comm 1]

/-- The name stands at that index, and at no later one. -/
def LastAt (names : List String) (name : String) (k : Nat) : Prop :=
  names[k]? = some name ∧ ∀ j, k < j → names[j]? ≠ some name

theorem lastAt_snoc {names : List String} {last : String} {k : Nat} :
    LastAt (names ++ [last]) name k ↔
      if name = last then k = names.length else LastAt names name k := by
  have before : ∀ {j : Nat}, j < names.length → (names ++ [last])[j]? = names[j]? :=
    List.getElem?_append_left
  have here : (names ++ [last])[names.length]? = some last := List.getElem?_concat_length
  have behind : ∀ {j : Nat}, names.length < j → (names ++ [last])[j]? = none := fun far =>
    List.getElem?_eq_none (by rwa [List.length_append, List.length_singleton])
  have outside : ∀ {j : Nat}, names.length ≤ j → names[j]? = none := List.getElem?_eq_none
  split
  · next same =>
    subst same
    constructor
    · rintro ⟨at_k, later⟩
      rcases Nat.lt_trichotomy k names.length with lt | eq | gt
      · exact absurd here (later _ lt)
      · exact eq
      · rw [behind gt] at at_k
        cases at_k
    · rintro rfl
      refine ⟨here, fun j far => ?_⟩
      rw [behind far]
      simp
  · next other =>
    have apart : ∀ j : Nat, (names ++ [last])[j]? = some name ↔ names[j]? = some name := by
      intro j
      rcases Nat.lt_trichotomy j names.length with lt | rfl | gt
      · rw [before lt]
      · rw [here, outside (Nat.le_refl _), Option.some.injEq]
        simp [Ne.symm other]
      · rw [behind gt, outside (Nat.le_of_lt gt)]
    simp only [LastAt, ne_eq, apart]

theorem lookup_addressesFrom {top : Int} {names : List String} :
    (addressesFrom top names).reverse.lookup name = some v ↔
      ∃ k : Nat, LastAt names name k ∧ v = top - k := by
  induction names using List.reverseRecOn with
  | nil => simp [addressesFrom, LastAt]
  | append_singleton names last ih =>
    rw [addressesFrom_snoc, List.reverse_append, List.reverse_singleton, List.singleton_append,
      SymbolTable.lookup_cons]
    simp only [lastAt_snoc]
    split
    · simp [eq_comm]
    · exact ih

/-- A name stands for the cell of the last variable of that name and, if there is none, for the
address of the label. -/
inductive Names (p : ObjectProgram) (size : Int) (name : String) : Int → Prop where
  | declared {k : Nat} : LastAt p.variableNames name k → Names p size name (size - 1 - k)
  | label {offset : Int} : name ∉ p.variableNames → p.labels.lookup name = some offset →
      Names p size name (offset + prologueLength)

theorem exists_lastAt {names : List String} (mem : name ∈ names) : ∃ k, LastAt names name k := by
  induction names using List.reverseRecOn with
  | nil => cases mem
  | append_singleton names last ih =>
    simp only [lastAt_snoc]
    split
    · exact ⟨_, rfl⟩
    · next other =>
      rcases List.mem_append.mp mem with mem | mem
      · exact ih mem
      · exact absurd (List.mem_singleton.mp mem) other

theorem lookup_labelAddresses (p : ObjectProgram) (name : String) :
    p.labelAddresses.lookup name = (p.labels.lookup name).map (· + (prologueLength : Int)) := by
  rw [labelAddresses]
  induction p.labels with
  | nil => rfl
  | cons e labels ih =>
    rw [List.map_cons, SymbolTable.lookup_cons, ih, SymbolTable.lookup_cons]
    split <;> rfl

theorem lookup_symbols_iff : (p.symbols size).lookup name = some v ↔ p.Names size name v := by
  have nodup : ((p.variableAddresses size).map Prod.fst).Nodup :=
    SymbolTable.nodup_putAll _ List.nodup_nil
  have cells : ∀ w, (p.variableAddresses size).lookup name = some w ↔
      ∃ k : Nat, LastAt p.variableNames name k ∧ w = size - 1 - k := by
    intro w
    rw [variableAddresses, SymbolTable.ofEntries, SymbolTable.lookup_putAll, List.lookup_nil,
      Option.or_none, lookup_addressesFrom]
  rw [symbols, SymbolTable.lookup_putAll, SymbolTable.lookup_reverse nodup, lookup_labelAddresses,
    Option.or_eq_some_iff, cells]
  constructor
  · rintro (⟨k, last, rfl⟩ | ⟨none, labelled⟩)
    · exact .declared last
    · obtain ⟨offset, found, rfl⟩ := Option.map_eq_some_iff.mp labelled
      refine .label (fun mem => ?_) found
      obtain ⟨k, last⟩ := exists_lastAt mem
      rw [(cells _).mpr ⟨k, last, rfl⟩] at none
      cases none
  · rintro (last | ⟨undeclared, found⟩)
    · exact .inl ⟨_, last, rfl⟩
    · refine .inr ⟨?_, by rw [found]; rfl⟩
      rw [Option.eq_none_iff_forall_ne_some]
      rintro w found
      obtain ⟨k, ⟨at_k, -⟩, -⟩ := (cells w).mp found
      exact undeclared (List.mem_of_getElem? at_k)

end ObjectProgram

end BusMachine
