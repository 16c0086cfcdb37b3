import BusMachine.Proofs.Machine.WellFormed

/-!
Control keeps the shape of the machine, and only faults interrupt it.
-/
namespace BusMachine.Control

variable {α β : Type} {size : Nat} {m : Machine}

theorem bind_of_ok {x : Control α} {f : α → Control β} {m m' : Machine} {a : α}
    (h : x m = .ok a m') : (x >>= f) m = f a m' := by
  simp only [bind, EStateM.bind, h]

theorem bind_of_error {x : Control α} {f : α → Control β} {m m' : Machine} {e : DatapathError}
    (h : x m = .error e m') : (x >>= f) m = .error e m' := by
  simp only [bind, EStateM.bind, h]

theorem get_bind (f : Machine → Control β) (m : Machine) : (get >>= f) m = f m m := rfl

theorem modify_bind (g : Machine → Machine) (f : Unit → Control β) (m : Machine) :
    (modify g >>= f) m = f () (g m) := rfl

/-- The shape is kept, the course is as before, and a failure is a fault. -/
def SafeOutcome (size : Nat) (m : Machine) : EStateM.Result DatapathError Machine α → Prop
  | .ok _ m' => m'.WellFormed size ∧ m.SameCourse m'
  | .error e m' => (m'.WellFormed size ∧ m.SameCourse m') ∧ ∃ f : Fault, e = f.raised m.writing

def Safe (c : Control α) : Prop :=
  ∀ (size : Nat) (m : Machine), m.WellFormed size → SafeOutcome size m (c m)

theorem SafeOutcome.from {a b : Machine} {r : EStateM.Result DatapathError Machine α}
    (h : a.SameCourse b) (safe : SafeOutcome size b r) : SafeOutcome size a r := by
  cases r with
  | ok _ m' => exact ⟨safe.1, h.trans safe.2⟩
  | error e m' => exact ⟨⟨safe.1.1, h.trans safe.1.2⟩, h.writing ▸ safe.2⟩

theorem safe_pure (a : α) : Safe (pure a) := fun _ m h => ⟨h, .refl m⟩

theorem safe_bind {x : Control α} {f : α → Control β} (first : Safe x) (then_ : ∀ a, Safe (f a)) :
    Safe (x >>= f) := by
  intro size m h
  have hx := first size m h
  cases run : x m with
  | ok a m' =>
    rw [run] at hx
    rw [bind_of_ok run]
    exact .from hx.2 (then_ a size m' hx.1)
  | error e m' =>
    rw [run] at hx
    rw [bind_of_error run]
    exact hx

theorem safe_get : Safe get := fun _ m h => ⟨h, .refl m⟩

theorem performAll_safe (ops : List MicroOp) : Safe (performAll ops) := by
  induction ops with
  | nil => exact fun _ m h => ⟨h, .refl m⟩
  | cons op ops ih =>
    intro size m h
    rcases m.perform_safe h op with ⟨m', done, shape, course⟩ | ⟨f, failed⟩
    · simp only [performAll, done]
      exact .from course (ih size m' shape)
    · simp only [performAll, failed]
      exact ⟨⟨h, .refl m⟩, f, rfl⟩

theorem fetch_safe : Safe fetch := by
  refine safe_bind safe_get ?_
  intro m
  split
  · exact safe_bind (performAll_safe _) (fun _ => safe_pure _)
  · exact safe_pure _

theorem fetchOperand_safe (kind : OperandKind) : Safe (fetchOperand kind) := by
  refine safe_bind (performAll_safe _) (fun _ => safe_bind safe_get ?_)
  intro m
  exact safe_bind (performAll_safe _) (fun _ =>
    safe_bind (performAll_safe _) (fun _ => safe_pure _))

theorem fetchOperands_safe (kinds : List OperandKind) : Safe (fetchOperands kinds) := by
  induction kinds with
  | nil => exact safe_pure _
  | cons kind kinds ih =>
    exact safe_bind (fetchOperand_safe kind) (fun _ => safe_bind ih (fun _ => safe_pure _))

theorem execute_safe (c : Opcode) : Safe (execute c) :=
  safe_bind (fetchOperands_safe _) (fun _ => performAll_safe _)

theorem decodeExecute_safe : Safe decodeExecute := by
  refine safe_bind (performAll_safe _) (fun _ => safe_bind safe_get ?_)
  intro m
  dsimp only
  split
  · exact safe_pure _
  · split
    · exact safe_pure _
    · exact safe_bind (execute_safe _) (fun _ => safe_pure _)

end BusMachine.Control
