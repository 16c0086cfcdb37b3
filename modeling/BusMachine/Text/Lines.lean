import BusMachine.Text.Blank

/-! Three ways in which text falls into lines. -/
namespace BusMachine.Text

def splitLines (cs : List Char) : List (List Char) := splitAtEach (· == '\n') cs

def endsLine (c : Char) : Bool :=
  let n := c.toNat
  (10 ≤ n && n ≤ 13) || (28 ≤ n && n ≤ 30) || n == 0x85 || n == 0x2028 || n == 0x2029

/-- The end of the last line may be left out: a final line end starts no further line. -/
def lines : List Char → List (List Char)
  | [] => []
  | '\r' :: '\n' :: cs => [] :: lines cs
  | c :: cs =>
    if endsLine c then [] :: lines cs
    else match lines cs with
      | [] => [[c]]
      | l :: ls => (c :: l) :: ls

def unifyNewlines : List Char → List Char
  | [] => []
  | '\r' :: '\n' :: cs => '\n' :: unifyNewlines cs
  | c :: cs => (if c == '\r' then '\n' else c) :: unifyNewlines cs

end BusMachine.Text
