import BusMachine.Proofs.Machine.Outcomes
import BusMachine.Proofs.Machine.Reachable

/-!
Calls and returns over whole runs. The cells from the stack pointer up are a stack of return
addresses, as long as only calls and returns move the pointer and only calls write there.
-/
namespace BusMachine

/-- What a step does to the return addresses. -/
inductive Transfer where
  | call (back : Int)
  | ret
  | other
deriving DecidableEq, Repr

namespace Transfer

def isCall : Transfer → Bool
  | .call _ => true
  | _ => false

def calls (ts : List Transfer) : Nat := ts.countP isCall

def returns (ts : List Transfer) : Nat := ts.count .ret

def apply (pending : List Int) : Transfer → List Int
  | .call back => back :: pending
  | .ret => pending.tail
  | .other => pending

/-- The return addresses of the calls not yet returned from, innermost first. -/
def pending (ts : List Transfer) : List Int := ts.foldl apply []

/-- Every return has its call before it, and every call its return after it. -/
inductive Balanced : List Transfer → Prop where
  | nil : Balanced []
  | other {ts : List Transfer} : Balanced ts → Balanced (.other :: ts)
  | call {back : Int} {inner rest : List Transfer} : Balanced inner → Balanced rest →
      Balanced (.call back :: (inner ++ .ret :: rest))

variable {ts us : List Transfer}

theorem pending_snoc (ts : List Transfer) (t : Transfer) :
    pending (ts ++ [t]) = t.apply (pending ts) := by
  simp only [pending, List.foldl_append, List.foldl_cons, List.foldl_nil]

theorem calls_snoc (ts : List Transfer) (t : Transfer) :
    calls (ts ++ [t]) = calls ts + if t.isCall then 1 else 0 := by
  simp only [calls, List.countP_append, List.countP_singleton]

theorem returns_snoc (ts : List Transfer) (t : Transfer) :
    returns (ts ++ [t]) = returns ts + if t = .ret then 1 else 0 := by
  simp only [returns, List.count_append, List.count_singleton, beq_iff_eq]

theorem Balanced.append (h : Balanced ts) (k : Balanced us) : Balanced (ts ++ us) := by
  induction h with
  | nil => exact k
  | other _ ih => exact .other ih
  | call inner _ _ ih =>
    rw [List.cons_append, List.append_assoc, List.cons_append]
    exact .call inner ih

theorem Balanced.calls_eq (h : Balanced ts) : calls ts = returns ts := by
  induction h with
  | nil => rfl
  | other _ ih => simpa [calls, returns, isCall] using ih
  | call _ _ inner rest =>
    simp only [calls, returns] at inner rest
    simp only [calls, returns, List.countP_cons, List.countP_append, List.count_cons,
      List.count_append, inner, rest]
    simp only [isCall, Bool.false_eq_true, if_true, if_false, Nat.add_zero, BEq.rfl, beq_iff_eq,
      reduceCtorEq]
    omega

/-- The innermost pending address belongs to a call after which calls and returns are balanced. -/
theorem matching_call {back : Int} {rest : List Int} (ts : List Transfer)
    (h : pending ts = back :: rest) :
    ∃ before inner, ts = before ++ .call back :: inner ∧ Balanced inner ∧
      pending before = rest := by
  rcases List.eq_nil_or_concat ts with none | ⟨earlier, t, snoc⟩
  · rw [none] at h
    cases h
  have shorter : earlier.length < ts.length := by
    simp only [snoc, List.length_concat, Nat.lt_add_one]
  rw [List.concat_eq_append] at snoc
  rw [snoc, pending_snoc] at h
  cases t with
  | call b =>
    cases h
    exact ⟨earlier, [], snoc, .nil, rfl⟩
  | other =>
    obtain ⟨before, inner, eq, balanced, left⟩ := matching_call earlier h
    exact ⟨before,
      inner ++ [Transfer.other], by simp [snoc, eq], balanced.append (.other .nil), left⟩
  | ret =>
    -- The return closes the innermost call, and what is open before that call stays open.
    obtain ⟨b, below⟩ : ∃ b, pending earlier = b :: back :: rest := by
      cases open_ : pending earlier with
      | nil => simp [apply, open_] at h
      | cons b below => exact ⟨b, congrArg (b :: ·) (by simpa [apply, open_] using h)⟩
    obtain ⟨outer, closed, eq, balanced, left⟩ := matching_call earlier below
    have outer_le : outer.length ≤ earlier.length := by
      simp only [eq, List.length_append, Nat.le_add_right]
    obtain ⟨before, inner, eq', balanced', left'⟩ := matching_call outer left
    exact ⟨before, inner ++ Transfer.call b :: (closed ++ [Transfer.ret]), by simp [snoc, eq, eq'],
      balanced'.append (.call balanced .nil), left'⟩
termination_by ts.length
decreasing_by all_goals omega

end Transfer

namespace Visible

/-- The cells from the stack pointer up hold these words. -/
def Stacks (v : Visible) (words : List Int) : Prop :=
  ∀ (i : Nat) (w : Int), words[i]? = some w →
    v.Inside (v.registers.stktop + i) ∧ v.read (v.registers.stktop + i) = w

variable {v v' : Visible} {words : List Int} {w : Int}

theorem Stacks.keep (h : v.Stacks words) (size : v'.cells.size = v.cells.size)
    (stktop : v'.registers.stktop = v.registers.stktop)
    (cells : ∀ a, v.Inside a → v.registers.stktop ≤ a → a < v.registers.stktop + words.length →
      v'.read a = v.read a) : v'.Stacks words := by
  intro i w at_i
  obtain ⟨inside, word⟩ := h i w at_i
  have bound := (List.getElem?_eq_some_iff.mp at_i).1
  rw [stktop]
  refine ⟨⟨inside.1, size.symm ▸ inside.2⟩, ?_⟩
  rw [cells _ inside (by omega) (by omega), word]

theorem Stacks.call (h : v.Stacks words) (inside : v.Inside (v.registers.stktop - 1))
    (target : Int) :
    (v.call target).Stacks (v.registers.pc :: words) := by
  have positive := inside.1
  intro i w at_i
  have top : (v.call target).registers.stktop = v.registers.stktop - 1 := rfl
  have size : (v.call target).cells.size = v.cells.size :=
    write_size (v.registers.stktop - 1) v.registers.pc
  rw [top]
  cases i with
  | zero =>
    cases at_i
    simp only [Int.natCast_zero, Int.add_zero]
    exact ⟨⟨positive, size.symm ▸ inside.2⟩, read_write_self inside⟩
  | succ i =>
    obtain ⟨older, word⟩ := h i w at_i
    have same : v.registers.stktop - 1 + (i + 1 : Nat) = v.registers.stktop + i := by omega
    rw [same]
    refine ⟨⟨older.1, size.symm ▸ older.2⟩, ?_⟩
    have kept : (v.call target).read (v.registers.stktop + i) = v.read (v.registers.stktop + i) :=
      read_write_ne positive older.1 (by omega)
    exact kept.trans word

theorem Stacks.ret (h : v.Stacks (w :: words)) : v.ret.Stacks words ∧ v.ret.registers.pc = w := by
  constructor
  · intro i x at_i
    have older := h (i + 1) x at_i
    have same : v.registers.stktop + (i + 1 : Nat) = v.registers.stktop + 1 + i := by omega
    rw [same] at older
    exact older
  · have first := (h 0 w rfl).2
    rw [Int.natCast_zero, Int.add_zero] at first
    exact first

end Visible

/-- What an instruction does to the return addresses, `back` being the address after its
operand word. -/
def Opcode.transfer (back : Int) : Opcode → Transfer
  | .call => .call back
  | .ret => .ret
  | _ => .other

namespace Machine

/-- What the step from this machine does to the return addresses. -/
def transfer (m : Machine) : Transfer :=
  match Opcode.ofWord? (m.visible.read m.registers.pc) with
  | some c => c.transfer (m.registers.pc + 2)
  | none => .other

/-- In a step from one machine to the other, only a call or a return moves the stack pointer, only a
call writes a cell from there up to `base`, and a return finds the stack pointer below `base`. -/
structure SparesStack (base : Int) (m m' : Machine) : Prop where
  stktop : m.transfer = .other → m'.registers.stktop = m.registers.stktop
  cells : m.transfer = .other → ∀ a, m.visible.Inside a → m.registers.stktop ≤ a → a < base →
    m'.visible.read a = m.visible.read a
  ret : m.transfer = .ret → m.registers.stktop < base

end Machine

/-- Steps that did not stop the machine lead from `start` to a machine and did those transfers in
order; each of them was as `ok` says. -/
inductive Control.Transfers (ok : Machine → Machine → Prop) (start : Machine) :
    List Transfer → Machine → Prop where
  | start : Transfers ok start [] start
  | step {ts : List Transfer} {m m' : Machine} : Transfers ok start ts m →
      Control.step m = .ok none m' →
      ok m m' → Transfers ok start (ts ++ [m.transfer]) m'

open Transfer

/-- The stack pointer has come down from `base` by one for each pending return address, and these
are in the cells above it. -/
structure Machine.Stacked (size : Nat) (base : Int) (ts : List Transfer) (m : Machine) : Prop where
  shape : m.WellFormed size
  running : m.phase ≠ .halted
  count : ((pending ts).length : Int) = calls ts - returns ts
  stktop : m.registers.stktop + (pending ts).length = base
  saved : m.visible.Stacks (pending ts)

variable {size : Nat} {base : Int} {ts : List Transfer} {m m' : Machine}

namespace Machine

theorem transfer_of_holds {c : Opcode} {operands : List Int} (holds : m.visible.Holds c operands) :
    m.transfer = c.transfer (m.registers.pc + 2) := by
  have word : m.visible.read m.registers.pc = c.id := holds.opcode
  rw [transfer, word, Opcode.ofWord?_id]

theorem call_visible {back : Int} (shape : m.WellFormed size) (running : m.phase ≠ .halted)
    (stepped : Control.step m = .ok none m') (calling : m.transfer = .call back) :
    m.visible.Inside (m.registers.stktop - 1) ∧
      ∃ t, m'.visible = (m.visible.fetched .call [t]).call t ∧ m.registers.pc + 2 = back := by
  obtain ⟨-, -, c, operands, holds, permits, seen⟩ := Control.step_proceeds shape running stepped
  rw [transfer_of_holds holds] at calling
  cases c <;> cases calling
  match operands, holds.count with
  | [t], _ => exact ⟨permits.address _ rfl, t, seen, rfl⟩

theorem ret_visible (shape : m.WellFormed size) (running : m.phase ≠ .halted)
    (stepped : Control.step m = .ok none m') (returning : m.transfer = .ret) :
    m'.visible = (m.visible.fetched .ret []).ret := by
  obtain ⟨-, -, c, operands, holds, -, seen⟩ := Control.step_proceeds shape running stepped
  rw [transfer_of_holds holds] at returning
  cases c <;> cases returning
  match operands, holds.count with
  | [], _ => exact seen

namespace Stacked

theorem pending_of_below (h : m.Stacked size base ts) (below : m.registers.stktop < base) :
    ∃ back rest, pending ts = back :: rest := by
  have stktop := h.stktop
  cases open_ : pending ts with
  | nil =>
    simp only [open_, List.length_nil] at stktop
    omega
  | cons back rest => exact ⟨back, rest, rfl⟩

theorem ret (h : m.Stacked size base ts) {back : Int} {rest : List Int}
    (open_ : pending ts = back :: rest) (stepped : Control.step m = .ok none m')
    (returning : m.transfer = .ret) :
    m'.visible.Stacks rest ∧ m'.registers.pc = back ∧
      m'.registers.stktop = m.registers.stktop + 1 := by
  have seen := ret_visible h.shape h.running stepped returning
  have saved : (m.visible.fetched .ret []).Stacks (back :: rest) := open_ ▸ h.saved
  have stktop : m'.registers.stktop = m.registers.stktop + 1 :=
    congrArg (fun v => v.registers.stktop) seen
  have counter : m'.registers.pc = (m.visible.fetched .ret []).ret.registers.pc :=
    congrArg (fun v => v.registers.pc) seen
  exact ⟨seen ▸ saved.ret.1, counter.trans saved.ret.2, stktop⟩

theorem step (h : m.Stacked size base ts) (stepped : Control.step m = .ok none m')
    (spares : m.SparesStack base m') : m'.Stacked size base (ts ++ [m.transfer]) := by
  obtain ⟨shape, phase, -⟩ := Control.step_proceeds h.shape h.running stepped
  have running : m'.phase ≠ .halted := by simp [phase]
  have count := h.count
  have base_eq := h.stktop
  cases transfer : m.transfer with
  | call back =>
    obtain ⟨inside, t, seen, rfl⟩ := call_visible h.shape h.running stepped transfer
    have saved : (m.visible.fetched .call [t]).Stacks (pending ts) := h.saved
    have stktop : m'.registers.stktop = m.registers.stktop - 1 :=
      congrArg (fun v => v.registers.stktop) seen
    refine ⟨shape, running, ?_, ?_, ?_⟩
    · simp only [pending_snoc, apply, List.length_cons, Int.natCast_add, Int.cast_ofNat_Int,
        calls_snoc, isCall, if_true, returns_snoc, reduceCtorEq, if_false, Nat.add_zero]
      omega
    · simp only [pending_snoc, apply, List.length_cons, stktop]
      omega
    · rw [pending_snoc, seen]
      exact saved.call inside t
  | ret =>
    obtain ⟨back, rest, open_⟩ := h.pending_of_below (spares.ret transfer)
    obtain ⟨saved, -, stktop⟩ := h.ret open_ stepped transfer
    rw [open_, List.length_cons] at count base_eq
    refine ⟨shape, running, ?_, ?_, ?_⟩
    · simp only [pending_snoc, apply, open_, List.tail_cons, calls_snoc, isCall, Bool.false_eq_true,
        if_false, Nat.add_zero, returns_snoc, if_true, Int.natCast_add, Int.cast_ofNat_Int]
      omega
    · simp only [pending_snoc, apply, open_, List.tail_cons, stktop]
      omega
    · rw [pending_snoc, apply, open_]
      exact saved
  | other =>
    have stktop := spares.stktop transfer
    have cells : m'.visible.cells.size = m.visible.cells.size :=
      shape.main.cells.trans h.shape.main.cells.symm
    refine ⟨shape, running, ?_, ?_, ?_⟩
    · simpa [pending_snoc, apply, calls_snoc, returns_snoc, isCall] using count
    · simpa only [pending_snoc, apply, stktop] using base_eq
    · rw [pending_snoc, apply]
      exact h.saved.keep cells stktop (fun a inside low high =>
        spares.cells transfer a inside low (base_eq ▸ high))

end Stacked

end Machine

theorem Control.Transfers.stacked {start : Machine} (shape : start.WellFormed size)
    (running : start.phase ≠ .halted)
    (run : Control.Transfers (Machine.SparesStack start.registers.stktop) start ts m) :
    m.Stacked size start.registers.stktop ts := by
  induction run with
  | start => exact ⟨shape, running, rfl, Int.add_zero _, fun i w at_i => by cases at_i⟩
  | step _ stepped spares ih => exact ih.step stepped spares

/-- Over every run in which only calls and returns use the stack, it holds the return addresses of
the calls not yet returned from, and a return goes back to its matching call. -/
theorem calls_and_returns_form_a_stack {n : Int} {start : Machine} (reachable : start.Reachable n)
    (running : start.phase ≠ .halted)
    (run : Control.Transfers (Machine.SparesStack start.registers.stktop) start ts m) :
    m.registers.stktop = start.registers.stktop - (calls ts - returns ts) ∧
      m.registers.stktop + (pending ts).length = start.registers.stktop ∧
      m.visible.Stacks (pending ts) ∧
      (∀ m', m.transfer = .ret → m.registers.stktop < start.registers.stktop →
        Control.step m = .ok none m' →
        ∃ before back inner, ts = before ++ .call back :: inner ∧ Balanced inner ∧
          m'.registers.pc = back) ∧
      (Balanced ts → m.registers.stktop = start.registers.stktop) := by
  have stacked := run.stacked reachable.sound.shape running
  have count := stacked.count
  have stktop := stacked.stktop
  refine ⟨by omega, stktop, stacked.saved, ?_, ?_⟩
  · intro m' returning below stepped
    obtain ⟨back, rest, open_⟩ := stacked.pending_of_below below
    obtain ⟨before, inner, eq, balanced, -⟩ := matching_call ts open_
    exact ⟨before, back, inner, eq, balanced, (stacked.ret open_ stepped returning).2.1⟩
  · intro balanced
    have same := balanced.calls_eq
    omega

/-- A machine that is about to call the return at address 3, with the stack pointer past the
last of eight cells. -/
def callsReturn : Machine :=
  HostOperation.after (.setRegister .stktop 8)
    (HostOperation.after (.load [19, 3, -1, 20]) { main := .blank 8 })

theorem call_is_returned_from :
    callsReturn.Reachable 8 ∧ callsReturn.phase ≠ .halted ∧
      ∃ m, Control.Transfers (Machine.SparesStack 8) callsReturn [.call 2] m ∧
        m.registers.stktop = 7 ∧
        m.visible.Stacks [2] ∧ ∃ m', Control.step m = .ok none m' ∧ m'.registers.pc = 2 := by
  have reachable : callsReturn.Reachable 8 := .after _ (.after _ (.new {} rfl))
  have running : callsReturn.phase ≠ .halted := by decide
  have holds : callsReturn.visible.Holds .call [3] := by
    refine ⟨rfl, by decide, by decide, by decide, ?_⟩
    intro i w at_i
    match i, at_i with
    | 0, at_i => cases at_i; rfl
  have permits : callsReturn.visible.Permits .call [3] := by
    refine ⟨by decide, ?_⟩
    rintro a ⟨⟩
    exact ⟨by decide, by decide⟩
  obtain ⟨m, stepped, shape, left, seen⟩ := Control.step_of_permitted reachable.sound.shape running
    (Machine.not_lineTooLong_of_untraced rfl) holds permits
  have first : callsReturn.transfer = .call 2 := by decide
  have spares : callsReturn.SparesStack 8 m := ⟨by simp [first], by simp [first], by simp [first]⟩
  have run := Control.Transfers.step .start stepped spares
  rw [first, List.nil_append] at run
  obtain ⟨stktop, -, saved, returns, -⟩ := calls_and_returns_form_a_stack reachable running run
  have holds' : m.visible.Holds .ret [] := by
    rw [seen]
    exact ⟨rfl, by decide, by decide, by decide, fun i w at_i => by cases at_i⟩
  have permits' : m.visible.Permits .ret [] := by
    rw [seen]
    refine ⟨by decide, ?_⟩
    rintro a ⟨⟩
    exact ⟨by decide, by decide⟩
  obtain ⟨m', stepped', -⟩ := Control.step_of_permitted shape (by simp [left.phase])
    (Machine.not_lineTooLong_of_untraced left.tracing) holds' permits'
  have returning : m.transfer = .ret := Machine.transfer_of_holds holds'
  obtain ⟨before, back, inner, eq, -, counter⟩ :=
    returns m' returning (by rw [stktop]; decide) stepped'
  have innermost : back = 2 := by
    cases before with
    | nil =>
      cases eq
      rfl
    | cons t before => cases before <;> cases eq
  exact ⟨reachable, running, m, run, stktop, saved, m', stepped', counter.trans innermost⟩

end BusMachine
