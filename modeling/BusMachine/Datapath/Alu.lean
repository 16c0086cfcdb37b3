import BusMachine.Datapath.Bus

/-! The arithmetic unit. Every operation leaves its result in the second register. -/
namespace BusMachine

inductive AluSide where
  | first
  | second
deriving DecidableEq, Repr

/-- Number 0 is the first register, every other number the second. -/
def AluSide.numbered (i : Int) : AluSide := if i = 0 then .first else .second

structure Alu where
  first : Int := 0
  second : Int := 0
deriving DecidableEq, Repr

namespace Alu

def get (a : Alu) : AluSide → Int
  | .first => a.first
  | .second => a.second

def set (a : Alu) (side : AluSide) (v : Int) : Alu :=
  match side with
  | .first => { a with first := v }
  | .second => { a with second := v }

inductive Operation where
  | add
  | sub
  | inc
deriving DecidableEq, Repr

def result (a : Alu) : Operation → Int
  | .add => a.first + a.second
  | .sub => a.first - a.second
  | .inc => a.second + 1

end Alu

structure Arithmetic where
  alu : Alu
  buses : Buses
deriving DecidableEq, Repr

namespace Arithmetic

def operate (s : Arithmetic) (op : Alu.Operation) : Arithmetic :=
  let r := s.alu.result op
  ⟨s.alu.set .second r, s.buses.put .alu r⟩

def load (s : Arithmetic) (side : AluSide) : Arithmetic :=
  { s with alu := s.alu.set side s.buses.external }

def drive (s : Arithmetic) (side : AluSide) : Arithmetic :=
  { s with buses := s.buses.put .external (s.alu.get side) }

/-- register ← private bus ← internal bus -/
def take (s : Arithmetic) (side : AluSide) : Arithmetic :=
  ⟨s.alu.set side s.buses.internal, s.buses.put .alu s.buses.internal⟩

/-- internal bus ← private bus ← register -/
def give (s : Arithmetic) (side : AluSide) : Arithmetic :=
  let v := s.alu.get side
  { s with buses := (s.buses.put .alu v).put .internal v }

end Arithmetic

end BusMachine
