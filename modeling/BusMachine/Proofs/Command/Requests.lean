import BusMachine.Command.Invocation
import BusMachine.Proofs.Text.Writable

/-!
Numbers of a command line were read, and so they can be written.
-/
namespace BusMachine.Command

/-- The memory size that was asked for, if it is known, can be written. -/
def Progress.Written (p : Progress) : Prop :=
  ∀ n, p.settings.memorySize = some n → Numeral.isWritable n = true

variable {p p' : Progress}

theorem integer_written {key : Key} {value : Option String} {n : Int}
    (h : integer key value = .ok (some n)) :
    Numeral.isWritable n = true := by
  cases value with
  | none => cases h
  | some text =>
    simp only [integer] at h
    cases read : Numeral.read text with
    | error e =>
      rw [read] at h
      cases h
    | ok k =>
      rw [read] at h
      cases h
      exact Numeral.isWritable_of_read read

theorem Progress.Written.apply (h : p.Written) {event : Event} (applied : p.apply event = .ok p') :
    p'.Written := by
  cases event with
  | operands words =>
    simp only [Progress.apply] at applied
    split at applied
    · cases applied
    · split at applied <;> cases applied
      exact h
  | option key value =>
    cases key with
    | memorySize =>
      simp only [Progress.apply] at applied
      split at applied
      · next n read =>
        cases applied
        rintro k rfl
        exact integer_written read
      · cases applied
    | _ => cases applied <;> exact h

theorem Progress.Written.applyAll (h : p.Written) {events : List Event}
    (applied : events.foldlM Progress.apply p = .ok p') : p'.Written := by
  induction events generalizing p with
  | nil =>
    cases applied
    exact h
  | cons event events ih =>
    rw [List.foldlM_cons] at applied
    cases next : p.apply event with
    | error request =>
      rw [next] at applied
      cases applied
    | ok q =>
      rw [next] at applied
      exact ih (h.apply next) applied

/-- Nothing is performed before all words were read. -/
theorem Progress.apply_error {event : Event} {request : Request}
    (ended : p.apply event = .error request) (settings : Settings) (task : Task) :
    request ≠ .perform settings task := by
  rintro rfl
  cases event with
  | operands words =>
    simp only [Progress.apply] at ended
    split at ended
    · cases ended
    · split at ended <;> cases ended
  | option key value =>
    cases key with
    | memorySize =>
      simp only [Progress.apply] at ended
      split at ended <;> cases ended
    | _ => cases ended

theorem applyAll_error {events : List Event} {request : Request}
    (ended : events.foldlM Progress.apply p = .error request) (settings : Settings) (task : Task) :
    request ≠ .perform settings task := by
  induction events generalizing p with
  | nil => cases ended
  | cons event events ih =>
    rw [List.foldlM_cons] at ended
    cases next : p.apply event with
    | error request' =>
      rw [next] at ended
      cases ended
      exact Progress.apply_error next settings task
    | ok q =>
      rw [next] at ended
      exact ih ended

/-- A memory size with which a task is performed can be written. -/
theorem isWritable_memorySize {words : List String} {settings : Settings} {task : Task} {n : Int}
    (asked : readRequest words = .perform settings task) (sized : settings.memorySize = some n) :
    Numeral.isWritable n = true := by
  have start : ({} : Progress).Written := by
    rintro n ⟨⟩
    exact Numeral.isWritable_of_small (by decide)
  simp only [readRequest] at asked
  split at asked
  · next request ended => exact absurd asked (applyAll_error ended settings task)
  · next p applied =>
    split at asked <;> cases asked
    exact start.applyAll applied n sized

end BusMachine.Command
