import BusMachine.Text.Blank
import BusMachine.Text.LowerCase

/-!
Paths of files. Empty parts and parts of one dot say nothing and are dropped.
-/
namespace BusMachine

open Text

structure Path where
  /-- empty, or the slashes with which the path begins -/
  root : String
  parts : List String
deriving DecidableEq, Repr

namespace Path

/-- Two leading slashes are kept, any other number of them counts as one. -/
def ofString (s : String) : Path :=
  let cs := s.toList
  let root := match (cs.takeWhile (· == '/')).length with
    | 0 => ""
    | 2 => "//"
    | _ => "/"
  let parts := (splitAtEach (· == '/') cs).map String.ofList
  ⟨root, parts.filter (fun p => p != "" && p != ".")⟩

def toString (p : Path) : String :=
  if p.root.isEmpty && p.parts.isEmpty then "." else p.root ++ "/".intercalate p.parts

def parent (p : Path) : Path := { p with parts := p.parts.dropLast }

def stages (p : Path) : List Path :=
  (List.range (p.parts.length + 1)).map (fun n => { p with parts := p.parts.take n })

end Path

/-- In lower case. Dots at the beginning of the name do not count. -/
def extension (path : String) : String :=
  let name := (splitAtEach (· == '/') path.toList).getLastD []
  let stem := name.dropWhile (· == '.')
  if stem.contains '.' then
    "." ++ lowerCase (String.ofList (stem.reverse.takeWhile (· != '.')).reverse)
  else ""

end BusMachine
