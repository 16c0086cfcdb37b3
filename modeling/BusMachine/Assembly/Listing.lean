import BusMachine.Assembly.Link
import BusMachine.Position
import BusMachine.Text.Column

namespace BusMachine

open Text

namespace Listing

/-- One row. Rows of variables and labels hold no words, and rows of labels no address. -/
structure Row where
  address : Option Int
  words : List Int
  source : String
deriving DecidableEq, Repr

def columns (address words source : String) : String :=
  alignRight 6 address ++ "  " ++ alignLeft 16 words ++ "  " ++ source

def Row.text (r : Row) : String :=
  columns (r.address.elim "" toString) (" ".intercalate (r.words.map toString)) r.source

def Row.isWritable (r : Row) : Bool := (r.address.toList ++ r.words).all Numeral.isWritable

def header : List String := [columns "ADDR" "WORDS" "SOURCE", String.ofList (List.replicate 60 '-')]

def variableRow (entry : String × Int) : Row := ⟨some entry.2, [], entry.1⟩

def labelRow (entry : String × Int) : Row := ⟨none, [], entry.1 ++ ":"⟩

def prologueRow (executable : List Int) (i : Nat) (register : Register) : Row :=
  let half := ObjectProgram.prologueLength / 2
  ⟨some ↑(i * half), Position.slice executable ↑(i * half) ↑((i + 1) * half),
    "<prologue: %" ++ register.lowerName ++ ">"⟩

def instructionRow (executable : List Int) (i : Instruction) : Row :=
  let address := i.offset + ObjectProgram.prologueLength
  ⟨some address, Position.slice executable address (address + i.size),
    String.ofList ((trim i.raw.toList).take 40)⟩

/-- Labels that stand at no instruction come last, in the order of their offsets. -/
def bodyRows (executable : List Int) : List (String × Int) → List Instruction → List Row
  | labels, [] => (labels.mergeSort (fun a b => a.2 ≤ b.2)).map labelRow
  | labels, i :: rest =>
    let here := labels.filter (·.2 == i.offset)
    let others := labels.filter (·.2 != i.offset)
    here.map labelRow ++ instructionRow executable i :: bodyRows executable others rest

def endRow (executable : List Int) : Row :=
  ⟨some ((executable.length : Int) - 1), [haltWord], "<end>"⟩

def rows (p : ObjectProgram) (executable : List Int) (memorySize : Int) : List Row :=
  (p.variableAddresses memorySize).map variableRow ++
    [prologueRow executable 0 .stkbot, prologueRow executable 1 .stktop] ++
    bodyRows executable p.labels p.instructions ++ [endRow executable]

end Listing

def listing (p : ObjectProgram) (executable : List Int) (memorySize : Int) :
    Except NumeralError String :=
  let rows := Listing.rows p executable memorySize
  if rows.all Listing.Row.isWritable then
    .ok ("\n".intercalate (Listing.header ++ rows.map Listing.Row.text))
  else .error .unwritable

end BusMachine
