import BusMachine.Command.Program

/-!
What an action does that uses no files. It ends alike in all sessions that have written the same
output and keep the same log records, whatever files they find, and it leaves the files alone; or it
ends in none of them. Such an action is described by the values that it returns, the failures with
which it ends, and what it means that it does not end.
-/
namespace BusMachine.Command

variable {α β : Type}

namespace Session

/-- Sessions without a log file between which only files and messages differ. -/
structure Alike (s t : Session) : Prop where
  output : s.output = t.output
  threshold : s.threshold = t.threshold
  unlogged : s.logFile = none
  unlogged' : t.logFile = none

/-- The sessions are alike, and have the files of these two. -/
structure Follow (s t s' t' : Session) : Prop where
  alike : s'.Alike t'
  files : s'.files = s.files
  files' : t'.files = t.files

theorem Alike.keeps_eq {s t : Session} (h : s.Alike t) (level : Level) :
    s.keeps level = t.keeps level := by
  simp only [keeps, h.threshold, h.unlogged, h.unlogged']

theorem Alike.symm {s t : Session} (h : s.Alike t) : t.Alike s :=
  ⟨h.output.symm, h.threshold.symm, h.unlogged', h.unlogged⟩

theorem Alike.follow {s t : Session} (h : s.Alike t) : Follow s t s t := ⟨h, rfl, rfl⟩

theorem Follow.trans {s t s' t' s'' t'' : Session} (h : Follow s t s' t')
    (h' : Follow s' t' s'' t'') : Follow s t s'' t'' :=
  ⟨h'.alike, h'.files.trans h.files, h'.files'.trans h.files'⟩

theorem flush_of_unlogged {s : Session} (h : s.logFile = none) : s.flush = s := by
  rw [flush, h]

theorem log_of_unlogged {s : Session} (h : s.logFile = none) (r : LogRecord) :
    ∃ messages, s.log r = { s with messages := messages } := by
  obtain ⟨files, output, messages, threshold, logFile, pending⟩ := s
  cases h
  rw [log]
  split
  · exact ⟨_, rfl⟩
  · exact ⟨messages, rfl⟩

end Session

open Session

namespace Action

variable {x : Action α} {f : α → Action β} {P Q : α → Prop} {R : β → Prop}
  {E F : Failure → Prop} {D : Prop}

/-- The same such value is returned in both sessions, or the same such failure ends the action in
both. -/
inductive Shared (s t : Session) (returns : α → Prop) (fails : Failure → Prop) :
    Except Failure α × Session → Except Failure α × Session → Prop where
  | value {a : α} {s' t' : Session} : Follow s t s' t' → returns a →
      Shared s t returns fails (.ok a, s') (.ok a, t')
  | failure {e : Failure} {s' t' : Session} : Follow s t s' t' → fails e →
      Shared s t returns fails (.error e, s') (.error e, t')

/-- In sessions that are alike the action ends in the same way, or does not end in either of
them. -/
def Ends (x : Action α) (returns : α → Prop) (fails : Failure → Prop) (endless : Prop) : Prop :=
  ∀ s t : Session, s.Alike t →
    (∃ l r, x s = some l ∧ x t = some r ∧ Shared s t returns fails l r) ∨
      x s = none ∧ x t = none ∧ endless

theorem bind_of_ok {a : α} {s s' : Session} (h : x s = some (.ok a, s')) :
    (x >>= f) s = f a s' := by
  show (x s).bind _ = _
  rw [h]
  rfl

theorem bind_of_error {e : Failure} {s s' : Session} (h : x s = some (.error e, s')) :
    (x >>= f) s = some (.error e, s') := by
  show (x s).bind _ = _
  rw [h]
  rfl

theorem bind_of_none {s : Session} (h : x s = none) : (x >>= f) s = none := by
  show (x s).bind _ = _
  rw [h]
  rfl

theorem Shared.mono {s t : Session} {l r : Except Failure α × Session} (h : Shared s t P E l r)
    (values : ∀ a, P a → Q a) (failures : ∀ e, E e → F e) : Shared s t Q F l r := by
  cases h with
  | value follow value => exact .value follow (values _ value)
  | failure follow failure => exact .failure follow (failures _ failure)

theorem Shared.after {s t s' t' : Session} {l r : Except Failure α × Session}
    (h : Shared s' t' P E l r) (follow : Follow s t s' t') : Shared s t P E l r := by
  cases h with
  | value further value => exact .value (follow.trans further) value
  | failure further failure => exact .failure (follow.trans further) failure

theorem Ends.mono (h : Ends x P E D) (values : ∀ a, P a → Q a) (failures : ∀ e, E e → F e) :
    Ends x Q F D := by
  intro s t alike
  rcases h s t alike with ⟨l, r, left, right, shared⟩ | endless
  · exact .inl ⟨l, r, left, right, shared.mono values failures⟩
  · exact .inr endless

theorem ends_pure {a : α} (value : P a) : Ends (pure a) P E D :=
  fun _ _ alike => .inl ⟨_, _, rfl, rfl, .value alike.follow value⟩

theorem ends_throw {e : Failure} (failure : E e) : Ends (throw e : Action α) P E D :=
  fun _ _ alike => .inl ⟨_, _, rfl, rfl, .failure alike.follow failure⟩

theorem Ends.bind (first : Ends x P E D) (then_ : ∀ a, P a → Ends (f a) R E D) :
    Ends (x >>= f) R E D := by
  intro s t alike
  rcases first s t alike with ⟨l, r, left, right, shared⟩ | ⟨left, right, endless⟩
  · cases shared with
    | @value a s' t' follow value =>
      rw [bind_of_ok left, bind_of_ok right]
      rcases then_ a value s' t' follow.alike with ⟨l, r, left, right, further⟩ | endless
      · exact .inl ⟨l, r, left, right, further.after follow⟩
      · exact .inr endless
    | failure follow failure =>
      rw [bind_of_error left, bind_of_error right]
      exact .inl ⟨_, _, rfl, rfl, .failure follow failure⟩
  · rw [bind_of_none left, bind_of_none right]
    exact .inr ⟨rfl, rfl, endless⟩

theorem Ends.files {s s' : Session} {a : α} (h : Ends x P E D) (unlogged : s.logFile = none)
    (done : x s = some (.ok a, s')) : s'.files = s.files ∧ s'.logFile = none := by
  rcases h s s ⟨rfl, rfl, unlogged, unlogged⟩ with ⟨l, r, left, -, shared⟩ | ⟨endless, -⟩
  · cases done.symm.trans left
    cases shared with
    | value follow => exact ⟨follow.files, follow.alike.unlogged⟩
  · cases done.symm.trans endless

theorem ends_orFail_ok {ε : Type} {wrap : ε → Failure} {a : α} (value : P a) :
    Ends (orFail wrap (.ok a)) P E D :=
  ends_pure value

theorem ends_orFail_error {ε : Type} {wrap : ε → Failure} {e : ε} (failure : E (wrap e)) :
    Ends (orFail wrap (.error e) : Action α) P E D :=
  ends_throw failure

/-- What is made by writing numbers is there, or one of them is too long to be written. -/
theorem ends_orFail_require {wrap : NumeralError → Failure} (k : Writing) (ns : List Int) {made : α}
    (value : P made) (failure : E (wrap .unwritable)) :
    Ends (orFail wrap (k.require ns made)) P E D := by
  rw [Writing.require]
  split
  · exact ends_orFail_ok value
  · exact ends_orFail_error failure

theorem ends_print (line : String) : Ends (print line) (fun _ => True) E D := by
  intro s t alike
  have output : (s.printLine line).output = (t.printLine line).output :=
    congrArg (· ++ line ++ "\n") alike.output
  have alike' : (s.printLine line).Alike (t.printLine line) :=
    ⟨output, alike.threshold, alike.unlogged, alike.unlogged'⟩
  exact .inl ⟨_, _, rfl, rfl, .value ⟨alike', rfl, rfl⟩ trivial⟩

theorem log_eq {s : Session} (unlogged : s.logFile = none) (logger : Logger) (level : Level)
    (text : String) :
    ∃ messages, log logger level text s = some (.ok (), { s with messages := messages }) := by
  obtain ⟨messages, logged⟩ := log_of_unlogged unlogged ⟨logger, level, text⟩
  exact ⟨messages, congrArg (fun s => some (Except.ok (), s)) logged⟩

theorem ends_log (logger : Logger) (level : Level) (text : String) :
    Ends (log logger level text) (fun _ => True) E D := by
  intro s t alike
  obtain ⟨messages, left⟩ := log_eq alike.unlogged logger level text
  obtain ⟨messages', right⟩ := log_eq alike.unlogged' logger level text
  exact .inl ⟨_, _, left, right, .value
    ⟨⟨alike.output, alike.threshold, alike.unlogged, alike.unlogged'⟩, rfl, rfl⟩ trivial⟩

/-- What comes after an action that may be left out does not depend on its being done. -/
theorem Ends.orSkip {x : Action Unit} {rest : Unit → Action β} (h : Ends x (fun _ => True) E D)
    (then_ : Ends (rest ()) R E D) (c : Prop) [Decidable c] :
    Ends (if c then x >>= rest else rest ()) R E D := by
  split
  · exact h.bind (fun _ _ => then_)
  · exact then_

/-- Both sessions keep the same records, so an action that asks for that is done in both or in
none of them. -/
theorem ends_keeps (level : Level) {g : Bool → Action α} (each : ∀ kept, Ends (g kept) P E D) :
    Ends (do g ((← get).keeps level)) P E D := by
  intro s t alike
  have same := each (s.keeps level) s t alike
  have right : (do g ((← get).keeps level)) t = g (s.keeps level) t := by
    rw [alike.keeps_eq level]
    rfl
  rw [right]
  exact same

end Action

end BusMachine.Command
