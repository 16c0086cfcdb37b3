import BusMachine.Command.Program

/-! The command line program, run on the files that it may touch. -/
namespace BusMachine.Command

def Request.paths : Request → List Path
  | .perform settings task =>
    let named := match task with
      | .assemble input output _ => [input, output.getD ""]
      | .run input _ | .build input _ | .disassemble input => [input]
    (settings.logFile.toList ++ named).map .ofString
  | _ => []

def look (p : Path) : IO (Option Node) := do
  try
    let bytes ← IO.FS.readBinFile p.toString
    return some (.file bytes.toList)
  catch e =>
    match e with
    | .inappropriateType .. => return some .directory
    | _ => return none

def survey (paths : List Path) : IO FileTree := do
  let mut tree : FileTree := {}
  for p in paths.flatMap Path.stages do
    match ← look p with
    | some n => tree := tree.put (FileTree.spelledPlace p) n
    | none => pure ()
  return tree

def writeFile (place : Place) (bytes : List UInt8) : IO Unit := do
  if place.length > 1 then IO.FS.createDirAll (placeText place.dropLast)
  IO.FS.writeBinFile (placeText place) ⟨bytes.toArray⟩

end BusMachine.Command

open BusMachine BusMachine.Command in
def main (words : List String) : IO UInt32 := do
  let before ← survey (readRequest words).paths
  let some outcome := Command.run none words before
    | return 1
  for (place, bytes) in outcome.files.changes before do
    writeFile place bytes
  IO.print outcome.output
  IO.eprint outcome.messages
  match outcome.result with
  | .ok code => return UInt32.ofNat code
  | .error e =>
    IO.eprintln e.message
    return 1
