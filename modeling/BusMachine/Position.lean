/-! Positions in a sequence. A negative position counts from the end: -1 is the last element. -/
namespace BusMachine

inductive IndexError where
  | reading
  | writing
  | unindexable
deriving DecidableEq, Repr

def IndexError.message : IndexError → String
  | .reading => "list index out of range"
  | .writing => "list assignment index out of range"
  | .unindexable => "cannot fit 'int' into an index-sized integer"

namespace Position

/-- The place from the front meant by a position, if the sequence has it. -/
def resolve? (size : Nat) (i : Int) : Option Nat :=
  let j := if i < 0 then i + size else i
  if 0 ≤ j ∧ j < size then some j.toNat else none

/-- Positions are signed 64-bit numbers. -/
def isIndexable (i : Int) : Bool := -9223372036854775808 ≤ i && i < 9223372036854775808

def locate (size : Nat) (outside : IndexError) (i : Int) : Except IndexError Nat :=
  match resolve? size i with
  | some n => .ok n
  | none => .error (if isIndexable i then outside else .unindexable)

def read {α : Type} (xs : List α) (i : Int) : Except IndexError α := do
  let n ← locate xs.length .reading i
  match xs[n]? with
  | some x => return x
  | none => throw .reading

/-- The cut from the front meant by a position; a cut past either end is the cut at that end. -/
def clamp (size : Nat) (i : Int) : Nat :=
  min (if i < 0 then i + size else i).toNat size

def slice {α : Type} (xs : List α) (i j : Int) : List α :=
  (xs.take (clamp xs.length j)).drop (clamp xs.length i)

end Position

end BusMachine
