import Mathlib.Data.List.Basic
import BusMachine.Datapath.Bench
import BusMachine.Proofs.Datapath.Bank

/-!
A bank on a bench under any use. What its latch and its cells hold is told by the calls that were
made on it and by the words that were on the buses then, whatever else was done on the bench between
the calls.
-/
namespace BusMachine

namespace Bench

variable {m : Nat} {b : Bench} {k : Bank}

/-- The bench with another bank at a place and other words on its buses. -/
def withBank (b : Bench) (m : Nat) (k : Bank) (buses : Buses) : Bench :=
  { b with buses := buses, banks := b.banks.setIfInBounds m k }

theorem withBank_getElem? (k' : Bank) (buses : Buses) (at_m : b.banks[m]? = some k) :
    (b.withBank m k' buses).banks[m]? = some k' :=
  Array.getElem?_setIfInBounds_self_of_lt (Array.getElem?_eq_some_iff.mp at_m).1

theorem withBank_self (buses : Buses) (at_m : b.banks[m]? = some k) :
    b.withBank m k buses = { b with buses := buses } := by
  have same : b.banks.setIfInBounds m k = b.banks := by
    apply Array.ext_getElem?
    intro i
    rw [Array.getElem?_setIfInBounds]
    split
    · next here => rw [← here, at_m, if_pos (Array.getElem?_eq_some_iff.mp at_m).1]
    · rfl
  rw [withBank, same]

theorem bank_of_getElem? (at_m : b.banks[m]? = some k) : b.bank m = k := by
  rw [bank, Array.getD_eq_getD_getElem?, at_m, Option.getD_some]

theorem attempt_eq {α : Type} (f : Bench → Except DatapathError α) (b : Bench) :
    attempt f b =
      match f b with
      | .ok x => .ok x b
      | .error e => .error e b := by
  have opened : attempt f b =
    (match f b with | .ok x => pure x | .error e => throw e : Action α) b := rfl
  rw [opened]
  cases f b <;> rfl

variable {α β : Type} {f : Bank → Buses → Except DatapathError α} {x : α} {e : DatapathError}

/-- An action goes on with what the bank answers, and if the bank fails it leaves the bench
as it was. -/
theorem attempt_bank_of_ok (g : α → Action β) (at_m : b.banks[m]? = some k)
    (done : f k b.buses = .ok x) :
    (attempt (fun b => f (b.bank m) b.buses) >>= g) b = g x b := by
  simp only [bind, EStateM.bind, attempt_eq, bank_of_getElem? at_m, done]

theorem attempt_bank_of_error (g : α → Action β) (at_m : b.banks[m]? = some k)
    (failed : f k b.buses = .error e) :
    (attempt (fun b => f (b.bank m) b.buses) >>= g) b = .error e b := by
  simp only [bind, EStateM.bind, attempt_eq, bank_of_getElem? at_m, failed]

end Bench

namespace Bank

open Bench

/-- What can be asked of a bank. -/
inductive Operation where
  | select
  | read
  | store
  | peek (a : Int)
  | poke (a v : Int)
  | load (words : List Int) (base : Int)
  | clear
deriving DecidableEq

/-- The operation on the bank of a number. Only `peek` has an answer. -/
def Operation.act (m : Nat) : Operation → Action (Option Int)
  | .select => changeBank m Bank.select >>= fun _ => pure none
  | .read => readBank m >>= fun _ => pure none
  | .store => changeBank m Bank.store >>= fun _ => pure none
  | .peek a => inspectBank m (·.peek a) >>= fun v => pure (some v)
  | .poke a v => changeBank m (fun k _ => k.poke a v) >>= fun _ => pure none
  | .load words base => changeBank m (fun k _ => k.load words base) >>= fun _ => pure none
  | .clear => changeBank m (fun k _ => .ok k.clear) >>= fun _ => pure none

/-- The bench after an operation, whether it fails or not. -/
def Operation.after (m : Nat) (op : Operation) (b : Bench) : Bench :=
  match op.act m b with
  | .ok _ b' => b'
  | .error _ b' => b'

/-- An operation, and the words that were on the buses when it was called. -/
structure Call where
  buses : Buses
  operation : Operation

def wordOn (bus : String) (b : Buses) : Option Int := (Wire.named bus).toOption.map b.get

/-- The last address that was selected and has a cell, since the bank was cleared. The newest call
is the first. -/
def latched (bus : String) (size : Nat) : List Call → Int
  | [] => 0
  | c :: calls =>
    match c.operation with
    | .select =>
      ((wordOn bus c.buses).filter (fun a => 0 ≤ a ∧ a < (size : Int))).getD
        (latched bus size calls)
    | .clear => 0
    | _ => latched bus size calls

/-- The word that an operation writes at an address while the latch points at `latch`. -/
def Operation.written (bus : String) (size : Nat) (latch : Int) (b : Buses) (a : Int) :
    Operation → Option Int
  | .store => if latch = a then wordOn bus b else none
  | .poke a' v => if a' = a then some v else none
  | .load words base =>
    if 0 ≤ base ∧ base + words.length ≤ size ∧ base ≤ a then words[(a - base).toNat]? else none
  | _ => none

/-- The last word that was written at an address since the bank was cleared. -/
def lastWritten (bus : String) (size : Nat) (a : Int) : List Call → Option Int
  | [] => none
  | c :: calls =>
    if c.operation = .clear then none
    else (c.operation.written bus size (latched bus size calls) c.buses a).or
      (lastWritten bus size a calls)

variable {name bus : String} {size m : Nat} {calls : List Call} {mem mem' : Memory} {b : Bench}
  {buses buses' : Buses}
  {op : Operation} {v : Option Int} {e : DatapathError}

/-- What an operation that does not fail answers, and what it leaves in the memory and on
the buses. -/
inductive Effect (bus : String) (mem : Memory) (b : Buses) :
    Operation → Option Int → Memory → Buses → Prop where
  | select {w : Wire} : Wire.named bus = .ok w → 0 ≤ b.get w → b.get w < mem.size →
      Effect bus mem b .select none { mem with latch := (b.get w).toNat } b
  | read {w : Wire} : Wire.named bus = .ok w →
      Effect bus mem b .read none mem (b.put w (mem.cells.getD mem.latch 0))
  | store {w : Wire} : Wire.named bus = .ok w →
      Effect bus mem b .store none { mem with cells := mem.cells.setIfInBounds mem.latch (b.get w) }
        b
  | peek {a : Int} : 0 ≤ a → a < mem.size →
      Effect bus mem b (.peek a) (some (mem.cells.getD a.toNat 0)) mem b
  | poke {a v : Int} : 0 ≤ a → a < mem.size →
      Effect bus mem b (.poke a v) none { mem with cells := mem.cells.setIfInBounds a.toNat v } b
  | load {words : List Int} {base : Int} {mem' : Memory} : 0 ≤ base →
      base + words.length ≤ mem.size →
      mem.load words base = .ok mem' → Effect bus mem b (.load words base) none mem' b
  | clear : Effect bus mem b .clear none mem.clear b

/-- Why an operation fails: the bank is wired to no bus, there is no cell at the address, or not all
words have one. An address that is too long is not reported as such. -/
inductive Fails (name bus : String) (size : Nat) (b : Buses) :
    Operation → DatapathError → Prop where
  | unwired {op : Operation} {e : DatapathError} : op = .select ∨ op = .read ∨ op = .store →
      Wire.named bus = .error e →
      Fails name bus size b op e
  | select {w : Wire} : Wire.named bus = .ok w → ¬(0 ≤ b.get w ∧ b.get w < size) →
      Fails name bus size b .select ((Fault.address name (b.get w) size).raised .limited)
  | peek {a : Int} : ¬(0 ≤ a ∧ a < size) →
      Fails name bus size b (.peek a) ((Fault.address name a size).raised .limited)
  | poke {a v : Int} : ¬(0 ≤ a ∧ a < size) →
      Fails name bus size b (.poke a v) ((Fault.address name a size).raised .limited)
  | load {words : List Int} {base : Int} : base < 0 ∨ size < base + words.length →
      Fails name bus size b (.load words base) (.memory (.doesNotFit words.length size base))

theorem effect_or_fails (name bus : String) (mem : Memory) (b : Buses) (op : Operation) :
    (∃ v mem' b', Effect bus mem b op v mem' b') ∨ ∃ e, Fails name bus mem.size b op e := by
  cases op with
  | select =>
    cases named : Wire.named bus with
    | error e => exact .inr ⟨e, .unwired (.inl rfl) named⟩
    | ok w =>
      by_cases inside : 0 ≤ b.get w ∧ b.get w < mem.size
      · exact .inl ⟨_, _, _, .select named inside.1 inside.2⟩
      · exact .inr ⟨_, .select named inside⟩
  | read =>
    cases named : Wire.named bus with
    | error e => exact .inr ⟨e, .unwired (.inr (.inl rfl)) named⟩
    | ok w => exact .inl ⟨_, _, _, .read named⟩
  | store =>
    cases named : Wire.named bus with
    | error e => exact .inr ⟨e, .unwired (.inr (.inr rfl)) named⟩
    | ok w => exact .inl ⟨_, _, _, .store named⟩
  | peek a =>
    by_cases inside : 0 ≤ a ∧ a < mem.size
    · exact .inl ⟨_, _, _, .peek inside.1 inside.2⟩
    · exact .inr ⟨_, .peek inside⟩
  | poke a v =>
    by_cases inside : 0 ≤ a ∧ a < mem.size
    · exact .inl ⟨_, _, _, .poke inside.1 inside.2⟩
    · exact .inr ⟨_, .poke inside⟩
  | load words base =>
    by_cases outside : base < 0 ∨ mem.size < base + words.length
    · exact .inr ⟨_, .load outside⟩
    · obtain ⟨low, fits⟩ := not_or.mp outside
      obtain ⟨mem', loaded⟩ := Memory.exists_load (Int.not_lt.mp low) (Int.not_lt.mp fits)
      exact .inl ⟨_, _, _, .load (Int.not_lt.mp low) (Int.not_lt.mp fits) loaded⟩
  | clear => exact .inl ⟨_, _, _, .clear⟩

theorem changeBank_of_ok {k k' : Bank} {f : Bank → Buses → Except DatapathError Bank}
    (at_m : b.banks[m]? = some k) (done : f k b.buses = .ok k') :
    (changeBank m f >>= fun _ => pure (none : Option Int)) b =
      .ok none (b.withBank m k' b.buses) := by
  rw [changeBank, bind_assoc, attempt_bank_of_ok _ at_m done]
  rfl

theorem changeBank_of_error {k : Bank} {f : Bank → Buses → Except DatapathError Bank}
    (at_m : b.banks[m]? = some k) (failed : f k b.buses = .error e) :
    (changeBank m f >>= fun _ => pure (none : Option Int)) b = .error e b := by
  rw [changeBank, bind_assoc, attempt_bank_of_error _ at_m failed]

theorem Effect.act (h : Effect bus mem b.buses op v mem' buses) (intact : mem.Intact size)
    (at_m : b.banks[m]? = some ⟨name, bus, mem⟩) :
    op.act m b = .ok v (b.withBank m ⟨name, bus, mem'⟩ buses) := by
  cases h with
  | select named low high =>
    refine changeBank_of_ok at_m ?_
    simp only [Bank.select, named, bind, Except.bind, Memory.select_of_inside name low high]
  | @read w named =>
    have done : Bank.read ⟨name, bus, mem⟩ b.buses =
      .ok (b.buses.put w (mem.cells.getD mem.latch 0)) := by
      simp only [Bank.read, named, bind, Except.bind, Memory.read_eq intact]
    rw [withBank_self _ at_m, Operation.act, readBank, bind_assoc, attempt_bank_of_ok _ at_m done]
    rfl
  | store named =>
    refine changeBank_of_ok at_m ?_
    simp only [Bank.store, named, bind, Except.bind, Memory.store_eq intact]
  | @peek a low high =>
    have done : Bank.peek ⟨name, bus, mem⟩ a = .ok (mem.cells.getD a.toNat 0) := by
      simp only [Bank.peek, Memory.peek_of_inside name low high, Except.mapError]
    rw [withBank_self _ at_m, Operation.act, inspectBank,
      attempt_bank_of_ok (f := fun k _ => k.peek a) _ at_m done]
    rfl
  | @poke a v low high =>
    refine changeBank_of_ok at_m ?_
    simp only [Bank.poke, Memory.poke_of_inside name v low high]
  | load low fits loaded =>
    refine changeBank_of_ok at_m ?_
    simp only [Bank.load, loaded]
  | clear => exact changeBank_of_ok at_m rfl

theorem Fails.act (h : Fails name bus mem.size b.buses op e)
    (at_m : b.banks[m]? = some ⟨name, bus, mem⟩) :
    op.act m b = .error e b := by
  cases h with
  | unwired wired named =>
    obtain rfl | rfl | rfl := wired
    · refine changeBank_of_error at_m ?_
      simp only [Bank.select, named, bind, Except.bind]
    · have failed : Bank.read ⟨name, bus, mem⟩ b.buses = .error e := by
        simp only [Bank.read, named, bind, Except.bind]
      rw [Operation.act, readBank, bind_assoc, attempt_bank_of_error _ at_m failed]
    · refine changeBank_of_error at_m ?_
      simp only [Bank.store, named, bind, Except.bind]
  | select named outside =>
    refine changeBank_of_error at_m ?_
    simp only [Bank.select, named, bind, Except.bind, Memory.select_of_outside name outside]
  | @peek a outside =>
    have failed : Bank.peek ⟨name, bus, mem⟩ a =
      .error ((Fault.address name a mem.size).raised .limited) := by
      simp only [Bank.peek, Memory.peek_of_outside name outside, Except.mapError]
    rw [Operation.act, inspectBank, attempt_bank_of_error (f := fun k _ => k.peek a) _ at_m failed]
  | @poke a v outside =>
    refine changeBank_of_error at_m ?_
    simp only [Bank.poke, Memory.poke_of_outside name v outside]
  | load outside =>
    refine changeBank_of_error at_m ?_
    simp only [Bank.load, Memory.load, if_pos outside]

theorem wordOn_of_named {w : Wire} (named : Wire.named bus = .ok w) (b : Buses) :
    wordOn bus b = some (b.get w) := by
  simp only [wordOn, named, Except.toOption, Option.map_some]

theorem wordOn_of_unwired (named : Wire.named bus = .error e) (b : Buses) :
    wordOn bus b = none := by
  simp only [wordOn, named, Except.toOption, Option.map_none]

/-- The latch and the cells are as the calls tell. -/
structure Follows (bus : String) (size : Nat) (calls : List Call) (mem : Memory) : Prop where
  intact : mem.Intact size
  latch : (mem.latch : Int) = latched bus size calls
  cells : ∀ n < size, mem.cells.getD n 0 = (lastWritten bus size n calls).getD 0

theorem blank_follows (bus : String) (positive : 0 < size) : Follows bus size [] (.blank size) := by
  refine ⟨Memory.blank_intact positive, rfl, ?_⟩
  intro n inside
  simp only [Memory.blank, Array.getD_eq_getD_getElem?, Array.getElem?_replicate, if_pos inside,
    lastWritten, Option.getD_some, Option.getD_none]

namespace Effect

theorem intact (h : Effect bus mem buses op v mem' buses') (shape : mem.Intact size) :
    mem'.Intact size := by
  cases h with
  | select named low high => exact Memory.select_intact shape (Memory.select_of_inside bus low high)
  | read named => exact shape
  | store named => exact Memory.write_intact shape _ _
  | peek low high => exact shape
  | poke low high => exact Memory.write_intact shape _ _
  | load low fits loaded => exact Memory.load_intact shape loaded
  | clear => exact Memory.clear_intact shape

theorem latched (h : Effect bus mem buses op v mem' buses') (shape : mem.size = size)
    (latch : mem.latch = latched bus size calls) :
    mem'.latch = latched bus size (⟨buses, op⟩ :: calls) := by
  cases h with
  | @select w named low high =>
    rw [shape] at high
    simp only [Bank.latched, wordOn_of_named named, Option.filter, low, high, and_self, decide_true,
      if_true, Option.getD_some, Int.toNat_of_nonneg]
  | read named => exact latch
  | store named => exact latch
  | peek low high => exact latch
  | poke low high => exact latch
  | load low fits loaded => exact (congrArg Int.ofNat (Memory.load_latch loaded)).trans latch
  | clear => rfl

theorem cells {n : Nat} (h : Effect bus mem buses op v mem' buses') (shape : mem.size = size)
    (inside : n < size) (other : op ≠ .clear) :
    mem'.cells.getD n 0 = (op.written bus size mem.latch buses n).getD (mem.cells.getD n 0) := by
  subst shape
  cases h with
  | select named low high => rfl
  | read named => rfl
  | store named =>
    simp only [Memory.write_cells _ _ inside, Operation.written, wordOn_of_named named,
      Int.natCast_inj]
    split
    · rfl
    · rfl
  | peek low high => rfl
  | @poke a v low high =>
    obtain ⟨a, rfl⟩ := Int.eq_ofNat_of_zero_le low
    simp only [Memory.write_cells _ _ inside, Operation.written, Int.toNat_natCast, Int.natCast_inj]
    split
    · rfl
    · rfl
  | load low fits loaded =>
    simp only [Memory.load_cells loaded, Operation.written, low, fits, true_and]
  | clear => exact absurd rfl other

theorem follows (h : Effect bus mem buses op v mem' buses') (follows : Follows bus size calls mem) :
    Follows bus size (⟨buses, op⟩ :: calls) mem' := by
  have shape : mem.size = size := follows.intact.cells
  refine ⟨h.intact follows.intact, h.latched shape follows.latch, ?_⟩
  intro n inside
  by_cases clear : op = .clear
  · subst clear
    cases h
    rw [lastWritten, if_pos rfl, Memory.clear, shape]
    exact (blank_follows bus (Nat.zero_lt_of_lt inside)).cells n inside
  · rw [h.cells shape inside clear, lastWritten, if_neg clear, Option.getD_or, follows.latch,
      follows.cells n inside]

end Effect

namespace Fails

theorem latched (h : Fails name bus size buses op e) :
    latched bus size (⟨buses, op⟩ :: calls) = latched bus size calls := by
  cases h with
  | unwired wired named =>
    obtain rfl | rfl | rfl := wired
    · simp only [Bank.latched, wordOn_of_unwired named, Option.filter, Option.getD_none]
    · rfl
    · rfl
  | select named outside =>
    simp only [Bank.latched, wordOn_of_named named, Option.filter, outside, decide_false,
      Bool.false_eq_true, if_false, Option.getD_none]
  | peek outside => rfl
  | poke outside => rfl
  | load outside => rfl

theorem written {n : Nat} (h : Fails name bus size buses op e) (inside : n < size) (latch : Int) :
    op.written bus size latch buses n = none := by
  cases h with
  | unwired wired named =>
    obtain rfl | rfl | rfl := wired
    · rfl
    · rfl
    · simp only [Operation.written, wordOn_of_unwired named, ite_self]
  | select named outside => rfl
  | peek outside => rfl
  | poke outside => exact if_neg (by omega)
  | load outside => exact if_neg (by omega)

theorem ne_clear (h : Fails name bus size buses op e) : op ≠ .clear := by
  rintro rfl
  cases h with
  | unwired wired named => simp at wired

theorem follows (h : Fails name bus size buses op e) (follows : Follows bus size calls mem) :
    Follows bus size (⟨buses, op⟩ :: calls) mem := by
  refine ⟨follows.intact, follows.latch.trans h.latched.symm, ?_⟩
  intro n inside
  rw [lastWritten, if_neg h.ne_clear, h.written inside, Option.none_or, follows.cells n inside]

end Fails

/-- The benches that come from one with the bank `k` at place `m`, by calls on it and by anything
that leaves it alone, with these calls. -/
inductive Used (m : Nat) (k : Bank) : List Call → Bench → Prop where
  | new {b : Bench} : b.banks[m]? = some k → Used m k [] b
  | call {calls : List Call} {b : Bench} (op : Operation) : Used m k calls b →
      Used m k (⟨b.buses, op⟩ :: calls) (op.after m b)
  | other {calls : List Call} {b b' : Bench} : Used m k calls b → b'.banks[m]? = b.banks[m]? →
      Used m k calls b'

/-- Any words may come on the buses between two calls. -/
theorem Used.withBuses {k : Bank} (used : Used m k calls b) (buses : Buses) :
    Used m k calls { b with buses := buses } :=
  used.other rfl

theorem Used.follows (positive : 0 < size) (used : Used m ⟨name, bus, .blank size⟩ calls b) :
    ∃ mem, b.banks[m]? = some ⟨name, bus, mem⟩ ∧ Follows bus size calls mem := by
  -- A call has its effect on the memory or leaves the bench as it was, and either way the history
  -- tells of it.
  generalize fresh : Bank.mk name bus (.blank size) = k at used
  induction used with
  | new at_m => exact ⟨_, fresh ▸ at_m, blank_follows bus positive⟩
  | @call calls b op _ ih =>
    obtain ⟨mem, at_m, follows⟩ := ih
    rcases effect_or_fails name bus mem b.buses op with ⟨v, mem', buses, effect⟩ | ⟨e, fails⟩
    · refine ⟨mem', ?_, effect.follows follows⟩
      rw [Operation.after, effect.act follows.intact at_m]
      exact withBank_getElem? _ _ at_m
    · refine ⟨mem, ?_, ?_⟩
      · rw [Operation.after, fails.act at_m]
        exact at_m
      · exact Fails.follows (follows.intact.cells ▸ fails) follows
  | other _ same ih =>
    obtain ⟨mem, at_m, follows⟩ := ih
    exact ⟨mem, same.trans at_m, follows⟩

/-- What a bank does after calls on it, as the calls tell. -/
structure Serves (m : Nat) (name bus : String) (size : Nat) (calls : List Call)
    (b : Bench) : Prop where
  shape : ∃ mem, b.banks[m]? = some ⟨name, bus, mem⟩ ∧ mem.cells.size = size ∧ mem.latch < size ∧
    mem.latch = latched bus size calls
  fails : ∀ op e b', Operation.act m op b = .error e b' ↔ Fails name bus size b.buses op e ∧ b' = b
  peek : ∀ a : Int, 0 ≤ a → a < size →
    Operation.act m (.peek a) b = .ok (some ((lastWritten bus size a calls).getD 0)) b
  read : ∀ w, Wire.named bus = .ok w →
    Operation.act m .read b =
      .ok none { b with
        buses := b.buses.put w ((lastWritten bus size (latched bus size calls) calls).getD 0) }
  select_read : ∀ w, Wire.named bus = .ok w → 0 ≤ b.buses.get w → b.buses.get w < size →
    ∃ b', Operation.act m .select b = .ok none b' ∧
      Operation.act m .read b' =
        .ok none { b' with
          buses := b.buses.put w ((lastWritten bus size (b.buses.get w) calls).getD 0) }

theorem Follows.act_error_iff {b' : Bench} (follows : Follows bus size calls mem)
    (at_m : b.banks[m]? = some ⟨name, bus, mem⟩) :
    op.act m b = .error e b' ↔ Fails name bus size b.buses op e ∧ b' = b := by
  have same : mem.size = size := follows.intact.cells
  constructor
  · intro failed
    rcases effect_or_fails name bus mem b.buses op with ⟨v, mem', buses, effect⟩ | ⟨e', fails⟩
    · cases failed.symm.trans (effect.act follows.intact at_m)
    · cases failed.symm.trans (fails.act at_m)
      exact ⟨same ▸ fails, rfl⟩
  · rintro ⟨fails, rfl⟩
    exact Fails.act (same ▸ fails) at_m

theorem Follows.act_peek {a : Int} (follows : Follows bus size calls mem)
    (at_m : b.banks[m]? = some ⟨name, bus, mem⟩) (low : 0 ≤ a) (high : a < size) :
    Operation.act m (.peek a) b = .ok (some ((lastWritten bus size a calls).getD 0)) b := by
  obtain ⟨n, rfl⟩ := Int.eq_ofNat_of_zero_le low
  have inside : (n : Int) < mem.size := follows.intact.cells ▸ high
  rw [Effect.act (.peek low inside) follows.intact at_m, withBank_self _ at_m, Int.toNat_natCast,
    follows.cells n (Int.ofNat_lt.mp high)]

theorem Follows.act_read {w : Wire} (follows : Follows bus size calls mem)
    (at_m : b.banks[m]? = some ⟨name, bus, mem⟩) (named : Wire.named bus = .ok w) :
    Operation.act m .read b =
      .ok none { b with
        buses :=
  b.buses.put w ((lastWritten bus size (latched bus size calls) calls).getD 0) } := by
  rw [Effect.act (.read named) follows.intact at_m, withBank_self _ at_m,
    follows.cells _ follows.intact.latch, follows.latch]

theorem Follows.act_select_read {w : Wire} (follows : Follows bus size calls mem)
    (at_m : b.banks[m]? = some ⟨name, bus, mem⟩) (named : Wire.named bus = .ok w)
    (low : 0 ≤ b.buses.get w) (high : b.buses.get w < size) :
    ∃ b', Operation.act m .select b = .ok none b' ∧
      Operation.act m .read b' =
        .ok none { b' with
          buses := b.buses.put w ((lastWritten bus size (b.buses.get w) calls).getD 0) } := by
  have effect : Effect bus mem b.buses .select none { mem with
    latch := (b.buses.get w).toNat } b.buses :=
    .select named low (follows.intact.cells ▸ high)
  have selected :=
    withBank_getElem? ⟨name, bus, { mem with latch := (b.buses.get w).toNat }⟩ b.buses at_m
  have latch := effect.latched follows.intact.cells follows.latch
  have read := (effect.follows follows).act_read selected named
  rw [← latch, Int.toNat_of_nonneg low] at read
  exact ⟨_, effect.act follows.intact at_m, read⟩

theorem used_bank_gives_last_written (positive : 0 < size)
    (used : Used m ⟨name, bus, .blank size⟩ calls b) :
    Serves m name bus size calls b := by
  obtain ⟨mem, at_m, follows⟩ := used.follows positive
  exact
    { shape := ⟨mem, at_m, follows.intact.cells, follows.intact.latch, follows.latch⟩
      fails := fun op e b' => follows.act_error_iff at_m
      peek := fun a low high => follows.act_peek at_m low high
      read := fun w named => follows.act_read at_m named
      select_read := fun w named low high => follows.act_select_read at_m named low high }

/-- The latch keeps its address while other words come on the bus, and a failed call takes
nothing back. -/
theorem stored_word_is_peeked :
    ∃ b calls, Used 0 ⟨"ram", "alu", .blank 2⟩ calls b ∧
      calls.map Call.operation = [.poke 5 1, .store, .select, .load [5, 6] 0] ∧
      Operation.act 0 (.peek 1) b = .ok (some 9) b := by
  have fresh : Used 0 ⟨"ram", "alu", .blank 2⟩ [] ⟨{ alu := 1 }, #[], ⟨.cleared 2, "alu"⟩, ⟨8, 0⟩,
    {},
      #[⟨"ram", "alu", .blank 2⟩]⟩ := .new rfl
  have selected := (fresh.call (.load [5, 6] 0)).call .select
  have shown := selected.withBuses { alu := 9 }
  have used := (shown.call .store).call (.poke 5 1)
  have serves := used_bank_gives_last_written (by decide) used
  refine ⟨_, _, used, rfl, (serves.peek 1 (by decide) (by decide)).trans ?_⟩
  refine congrArg (fun v => EStateM.Result.ok (some v) _) ?_
  decide +kernel

end Bank

end BusMachine
