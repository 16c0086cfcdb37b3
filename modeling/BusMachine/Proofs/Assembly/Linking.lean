import Mathlib.Algebra.GroupWithZero.Nat
import Mathlib.Data.List.Forall2
import BusMachine.Assembly.Link

/-!
Linking. Every operand of a linked program has a number that it stands for, and the words of the
executable are the prologue, the instructions one after the other, and the halt word.
-/
namespace BusMachine

/-- The words that instructions take together. -/
def wordCount (is : List Instruction) : Nat := (is.map Instruction.size).sum

@[simp] theorem wordCount_nil : wordCount [] = 0 := rfl

@[simp] theorem wordCount_append (is js : List Instruction) :
    wordCount (is ++ js) = wordCount is + wordCount js := by
  simp [wordCount]

@[simp] theorem wordCount_cons (i : Instruction) (is : List Instruction) :
    wordCount (i :: is) = i.size + wordCount is := by
  simp [wordCount]

namespace SymbolTable

theorem mem_of_lookup {t : SymbolTable} {name : String} {v : Int} (h : t.lookup name = some v) :
    (name, v) ∈ t := by
  obtain ⟨before, after, split, -⟩ := List.lookup_eq_some_iff.mp h
  rw [split]
  exact List.mem_append_right _ (List.mem_cons_self ..)

theorem mem_put {t : SymbolTable} {name key : String} {v w : Int} (h : (name, v) ∈ t.put key w) :
    (name, v) = (key, w) ∨ (name, v) ∈ t := by
  rw [put] at h
  split at h
  · obtain ⟨e, he, eq⟩ := List.mem_map.mp h
    split at eq
    · exact .inl eq.symm
    · exact .inr (eq ▸ he)
  · rcases List.mem_append.mp h with h | h
    · exact .inr h
    · exact .inl (List.mem_singleton.mp h)

theorem mem_putAll {es : List (String × Int)} {t : SymbolTable} {name : String} {v : Int}
    (h : (name, v) ∈ t.putAll es) : (name, v) ∈ es ∨ (name, v) ∈ t := by
  induction es generalizing t with
  | nil => exact .inr h
  | cons e es ih =>
    rcases ih h with h | h
    · exact .inl (List.mem_cons_of_mem _ h)
    · rcases mem_put h with eq | h
      · exact .inl (eq ▸ List.mem_cons_self ..)
      · exact .inr h

theorem put_of_fresh {t : SymbolTable} {key : String} (v : Int) (fresh : key ∉ t.map Prod.fst) :
    t.put key v = t ++ [(key, v)] := by
  rw [put, if_neg]
  intro known
  obtain ⟨e, he, same⟩ := List.any_eq_true.mp known
  exact fresh (eq_of_beq same ▸ List.mem_map_of_mem he)

theorem putAll_of_fresh {es : List (String × Int)} {t : SymbolTable}
    (nodup : ((t ++ es).map Prod.fst).Nodup) : t.putAll es = t ++ es := by
  induction es generalizing t with
  | nil => exact (List.append_nil t).symm
  | cons e es ih =>
    have fresh : e.1 ∉ t.map Prod.fst := by
      rw [List.map_append, List.nodup_append] at nodup
      exact fun mem => nodup.2.2 _ mem _ (List.mem_cons_self ..) rfl
    have rest : ((t ++ [(e.1, e.2)] ++ es).map Prod.fst).Nodup := by
      rwa [List.append_assoc, List.singleton_append]
    have step : t.putAll (e :: es) = (t.put e.1 e.2).putAll es := rfl
    rw [step, put_of_fresh e.2 fresh, ih rest, List.append_assoc, List.singleton_append]

end SymbolTable

namespace ObjectProgram

variable {p : ObjectProgram} {size : Int}

theorem addressesFrom_getElem? (top : Int) (names : List String) (k : Nat) :
    (addressesFrom top names)[k]? = names[k]?.map (fun name => (name, top - k)) := by
  induction names generalizing top k with
  | nil => simp [addressesFrom]
  | cons name names ih =>
    cases k with
    | zero => simp [addressesFrom]
    | succ k =>
      rw [addressesFrom, List.getElem?_cons_succ, ih, List.getElem?_cons_succ]
      congr 1
      funext other
      rw [Int.natCast_succ, Int.sub_sub, Int.add_comm]

theorem variableAddresses_eq (nodup : p.variableNames.Nodup) :
    p.variableAddresses size = p.variableNames.zipIdx.map (fun e =>
      (e.1, size - 1 - (e.2 : Int))) := by
  have entries : addressesFrom (size - 1) p.variableNames =
      p.variableNames.zipIdx.map (fun e => (e.1, size - 1 - (e.2 : Int))) := by
    apply List.ext_getElem?
    intro k
    rw [addressesFrom_getElem?, List.getElem?_map, List.getElem?_zipIdx, Option.map_map]
    simp only [Nat.zero_add]
    rfl
  rw [← entries, variableAddresses, SymbolTable.ofEntries, SymbolTable.putAll_of_fresh,
    List.nil_append]
  rw [List.nil_append, entries, List.map_map]
  have kept : Prod.fst ∘ (fun e : String × Nat => (e.1, size - 1 - (e.2 : Int))) = Prod.fst := rfl
  rwa [kept, List.zipIdx_map_fst]

theorem mem_addressesFrom {top : Int} {names : List String} {name : String} {a : Int}
    (h : (name, a) ∈ addressesFrom top names) : ∃ k : Nat, names[k]? = some name ∧ a = top - k := by
  obtain ⟨k, at_k⟩ := List.mem_iff_getElem?.mp h
  rw [addressesFrom_getElem?, Option.map_eq_some_iff] at at_k
  obtain ⟨name', named, eq⟩ := at_k
  cases eq
  exact ⟨k, named, rfl⟩

/-- The number that stands for an operand in an executable for a memory of that size. -/
inductive Resolves (p : ObjectProgram) (size : Int) : Operand → Int → Prop where
  | register {name : String} {r : Register} : Register.named? name = some r →
      Resolves p size (.register name) r.id
  | literal {text : String} {n : Int} : Numeral.read text = .ok n →
      Resolves p size (.literal text) n
  | declared {name : String} {k : Nat} : p.variableNames[k]? = some name →
      Resolves p size (.symbol name) (size - 1 - k)
  | label {name : String} {offset : Int} : (name, offset) ∈ p.labels →
      Resolves p size (.symbol name) (offset + prologueLength)

/-- The words that stand for an instruction. -/
def Encodes (p : ObjectProgram) (size : Int) (i : Instruction) (code : List Int) : Prop :=
  ∃ values, code = (i.opcode.id : Int) :: values ∧ List.Forall₂ (p.Resolves size) i.operands values

theorem mem_symbols {name : String} {v : Int} (h : (p.symbols size).lookup name = some v) :
    (∃ k : Nat, p.variableNames[k]? = some name ∧ v = size - 1 - k) ∨
      ∃ offset, (name, offset) ∈ p.labels ∧ v = offset + prologueLength := by
  rcases SymbolTable.mem_putAll (SymbolTable.mem_of_lookup h) with h | h
  · rcases SymbolTable.mem_putAll h with h | h
    · exact .inl (mem_addressesFrom h)
    · cases h
  · obtain ⟨e, he, eq⟩ := List.mem_map.mp h
    cases eq
    exact .inr ⟨e.2, he, rfl⟩

theorem resolves_of_resolve {i : Instruction} {o : Operand} {v : Int}
    (h : resolve (p.symbols size) i o = .ok v) : p.Resolves size o v := by
  cases o with
  | register name =>
    simp only [resolve] at h
    split at h
    · next r found =>
      cases h
      exact .register found
    · cases h
  | symbol name =>
    simp only [resolve] at h
    split at h
    · next address found =>
      cases h
      rcases mem_symbols found with ⟨k, at_k, rfl⟩ | ⟨offset, label, rfl⟩
      · exact .declared at_k
      · exact .label label
    · cases h
  | literal text =>
    simp only [resolve] at h
    split at h
    · next n read =>
      cases h
      exact .literal read
    · cases h

theorem mapM_ok {ε α β : Type} {f : α → Except ε β} {xs : List α} {ys : List β}
    (h : xs.mapM f = .ok ys) : List.Forall₂ (fun x y => f x = .ok y) xs ys := by
  induction xs generalizing ys with
  | nil =>
    cases h
    exact .nil
  | cons x xs ih =>
    rw [List.mapM_cons] at h
    cases first : f x with
    | error e =>
      rw [first] at h
      cases h
    | ok y =>
      cases rest : xs.mapM f with
      | error e =>
        rw [first, rest] at h
        cases h
      | ok ys' =>
        rw [first, rest] at h
        cases h
        exact .cons first (ih rest)

theorem encodes_of_encode {i : Instruction} {code : List Int}
    (h : encode (p.symbols size) i = .ok code) : p.Encodes size i code := by
  rw [encode] at h
  cases words : i.operands.mapM (resolve (p.symbols size) i) with
  | error e =>
    rw [words] at h
    cases h
  | ok values =>
    rw [words] at h
    cases h
    exact ⟨values, rfl, (mapM_ok words).imp (fun _ _ => resolves_of_resolve)⟩

theorem link_ok {words : List Int} (h : p.link size = .ok words) :
    ∃ codes, words = prologue (p.variableBase size) ++ codes.flatten ++ [haltWord] ∧
      List.Forall₂ (p.Encodes size) p.instructions codes ∧ words.length ≤ p.variableBase size := by
  rw [link] at h
  cases code : p.instructions.mapM (encode (p.symbols size)) with
  | error e =>
    rw [code] at h
    cases h
  | ok codes =>
    rw [code] at h
    simp only [bind, Except.bind, pure, Except.pure, throw, throwThe, MonadExceptOf.throw] at h
    split at h
    · next fits =>
      cases h
      exact ⟨codes, rfl, (mapM_ok code).imp (fun _ _ => encodes_of_encode), fits⟩
    · split at h <;> cases h

theorem Encodes.length {i : Instruction} {code : List Int} (h : p.Encodes size i code) :
    code.length = i.size := by
  obtain ⟨values, rfl, resolved⟩ := h
  rw [List.length_cons, ← resolved.length_eq, Instruction.size, Nat.add_comm]

theorem encodes_length {is : List Instruction} {codes : List (List Int)}
    (h : List.Forall₂ (p.Encodes size) is codes) : codes.flatten.length = wordCount is := by
  induction h with
  | nil => rfl
  | cons first _ ih =>
    rw [List.flatten_cons, List.length_append, first.length, ih, wordCount_cons]

theorem prologueLength_eq : prologueLength = 6 := rfl

theorem variableBase_le (p : ObjectProgram) (size : Int) : p.variableBase size ≤ size := by
  show size - p.variableNames.length ≤ size
  omega

theorem words_length {words : List Int} {base : Int} {codes : List (List Int)}
    (encoded : List.Forall₂ (p.Encodes size) p.instructions codes)
    (split : words = prologue base ++ codes.flatten ++ [haltWord]) :
    words.length = 6 + wordCount p.instructions + 1 := by
  have head : (prologue base).length = 6 := rfl
  rw [split, List.length_append, List.length_append, encodes_length encoded, head,
    List.length_singleton]

end ObjectProgram

end BusMachine
