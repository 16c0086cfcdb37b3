import BusMachine.Datapath.Error

namespace BusMachine

inductive Wire where
  | internal
  | external
  | alu
deriving DecidableEq, Repr

structure Buses where
  internal : Int := 0
  external : Int := 0
  alu : Int := 0
deriving DecidableEq, Repr

def Wire.named : String → Except DatapathError Wire
  | "internal" => .ok .internal
  | "external" => .ok .external
  | "alu" => .ok .alu
  | name => .error (.unknownBus name)

namespace Buses

def get (b : Buses) : Wire → Int
  | .internal => b.internal
  | .external => b.external
  | .alu => b.alu

def put (b : Buses) (w : Wire) (v : Int) : Buses :=
  match w with
  | .internal => { b with internal := v }
  | .external => { b with external := v }
  | .alu => { b with alu := v }

def toExternal (b : Buses) : Buses := { b with external := b.internal }

def toInternal (b : Buses) : Buses := { b with internal := b.external }

end Buses

end BusMachine
