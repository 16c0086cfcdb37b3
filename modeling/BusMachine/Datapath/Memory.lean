import BusMachine.Datapath.Error
import BusMachine.Text.Column

/-! A bank of memory. An address is judged when it is latched, before the cell is used. -/
namespace BusMachine

structure Memory where
  cells : Array Int
  latch : Nat
deriving DecidableEq, Repr

namespace Memory

def blank (size : Nat) : Memory := ⟨Array.replicate size 0, 0⟩

def ofSize (host : Host) (size : Int) : Except MemoryError Memory :=
  if 0 < size then (cellCount host size).map blank else .error (.sizeNotPositive size)

def size (m : Memory) : Nat := m.cells.size

/-- The cell number meant by an address; `bank` is the name under which a fault is reported. -/
def locate (m : Memory) (bank : String) (a : Int) : Except Fault Nat :=
  if 0 ≤ a ∧ a < m.size then .ok a.toNat else .error (.address bank a m.size)

def select (m : Memory) (bank : String) (a : Int) : Except Fault Memory :=
  (m.locate bank a).map (fun n => { m with latch := n })

def read (m : Memory) : Except IndexError Int :=
  match m.cells[m.latch]? with
  | some v => .ok v
  | none => .error .reading

def store (m : Memory) (v : Int) : Except IndexError Memory :=
  if m.latch < m.size then .ok { m with cells := m.cells.setIfInBounds m.latch v }
  else .error .writing

def peek (m : Memory) (bank : String) (a : Int) : Except Fault Int :=
  (m.locate bank a).map (fun n => m.cells.getD n 0)

def poke (m : Memory) (bank : String) (a v : Int) : Except Fault Memory :=
  (m.locate bank a).map (fun n => { m with cells := m.cells.setIfInBounds n v })

def load (m : Memory) (words : List Int) (base : Int) : Except MemoryError Memory :=
  if base < 0 ∨ m.size < base + words.length then
    .error (.doesNotFit words.length m.size base)
  else
    let cells := m.cells.toList
    let n := base.toNat
    .ok { m with cells := (cells.take n ++ words ++ cells.drop (n + words.length)).toArray }

def clear (m : Memory) : Memory := blank m.size

end Memory

/-- How many steps of `step` lead from `start` to before `stop`; the step may go down. -/
def strideCount (start stop step : Int) : Nat :=
  if 0 < step then ((stop - start + step - 1) / step).toNat
  else ((start - stop - step - 1) / (-step)).toNat

def stride (start stop step : Int) : List Int :=
  (List.range (strideCount start stop step)).map (fun (i : Nat) => start + i * step)

namespace Memory

structure Row where
  address : Int
  words : List Int
deriving DecidableEq, Repr

def rows (m : Memory) (start : Int) (length : Option Int) (perRow : Int) :
    Except MemoryError (List Row) :=
  if perRow = 0 then .error .emptyRows
  else
    let stop := min (start + length.getD (m.size - start)) m.size
    .ok ((stride start stop perRow).map (fun a =>
      ⟨a, Position.slice m.cells.toList a (min (a + perRow) stop)⟩))

def Row.text (r : Row) : String :=
  Text.zeroPadded 4 r.address ++ ": " ++
    " ".intercalate (r.words.map (fun w => Text.alignRight 6 (toString w)))

def Row.isWritable (k : Writing) (r : Row) : Bool := (r.address :: r.words).all k.allows

def dump (k : Writing) (m : Memory) (start : Int) (length : Option Int) (perRow : Int) :
    Except MemoryError String := do
  let rs ← m.rows start length perRow
  if rs.all (Row.isWritable k) then return "\n".intercalate (rs.map Row.text)
  else throw .unwritable

end Memory

end BusMachine
