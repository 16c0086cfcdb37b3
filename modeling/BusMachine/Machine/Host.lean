import BusMachine.Assembly.Assembler
import BusMachine.Machine.Cycle
import BusMachine.Machine.Load

/-! What a host can do to a machine from outside. -/
namespace BusMachine

inductive HostError where
  | datapath (e : DatapathError)
  | load (e : LoadError)
  | assembly (e : AssemblyError)
deriving DecidableEq, Repr

def HostError.message : HostError → String
  | .datapath e => e.message
  | .load e => e.message
  | .assembly e => e.message

inductive HostOperation where
  | load (words : List Int)
  | loadFile (text : String)
  | loadSource (source : String)
  | step
  | run (limit : Option Int)
  /-- the first phase of a step alone, without stopping the machine -/
  | fetch
  | decodeExecute
  | setRegister (r : Register) (v : Int)
  | setFlag (i : Int) (bit : Bool)
  | setTracing (on : Bool)
  | clearTrace
  | reset
  | poke (address v : Int)
  | loadCells (words : List Int) (base : Int)
  | clearCells
deriving DecidableEq, Repr

namespace Machine

/-- What a host gets for control: errors keep what was done before them. -/
def answer {α : Type} (reason : α → Option StopReason) :
    EStateM.Result DatapathError Machine α → EStateM.Result HostError Machine (Option StopReason)
  | .ok a m => .ok (reason a) m
  | .error e m => .error (.datapath e) m

def replace {ε : Type} (wrap : ε → HostError) (f : Machine → Except ε Machine) :
    EStateM HostError Machine (Option StopReason) := fun m =>
  match f m with
  | .ok m' => .ok none m'
  | .error e => .error (wrap e) m

def loadSource (m : Machine) (source : String) : Except HostError Machine :=
  match assemble source m.main.size with
  | .ok words => (m.load words).mapError .load
  | .error e => .error (.assembly e)

def peek (m : Machine) (a : Int) : Except HostError Int :=
  (m.main.peek MemoryBank.main.name a).mapError (fun f => .datapath (f.raised m.writing))

def dump (m : Machine) (start : Int) (length : Option Int) (perRow : Int) :
    Except HostError String :=
  (m.main.dump m.writing start length perRow).mapError (.datapath ∘ .memory)

end Machine

open Machine in
/-- A run that never stops has no outcome. -/
def HostOperation.perform (op : HostOperation) (m : Machine) :
    Option (EStateM.Result HostError Machine (Option StopReason)) :=
  match op with
  | .load words => some (replace .load (·.load words) m)
  | .loadFile text => some (replace .load (·.loadFile text) m)
  | .loadSource source => some (replace id (·.loadSource source) m)
  | .step => some (answer id (Control.step m))
  | .run limit => (Control.run limit m).map (answer some)
  | .fetch => some (answer id (Control.fetch m))
  | .decodeExecute => some (answer id (Control.decodeExecute m))
  | .setRegister r v => some (.ok none (m.setRegister r v))
  | .setFlag i bit => some (replace (.datapath ∘ .index) (·.setFlag i bit) m)
  | .setTracing on => some (.ok none { m with tracing := on })
  | .clearTrace => some (.ok none m.clearTrace)
  | .reset => some (.ok none m.reset)
  | .poke a v =>
    some (replace (fun f => .datapath (f.raised m.writing)) (fun m =>
      (m.main.poke MemoryBank.main.name a v).map (fun main => { m with main := main })) m)
  | .loadCells words base =>
    some (replace (.datapath ∘ .memory) (fun m =>
      (m.main.load words base).map (fun main => { m with main := main })) m)
  | .clearCells => some (.ok none { m with main := m.main.clear })

end BusMachine
