import BusMachine.Text.Printable

namespace BusMachine.Text

def hex (width n : Nat) : List Char := (Nat.toDigits 16 n).leftpad width '0'

/-- Characters that are not printable are given by their code point. -/
def spell (mark c : Char) : List Char :=
  if c == mark || c == '\\' then ['\\', c]
  else if c == '\t' then ['\\', 't']
  else if c == '\n' then ['\\', 'n']
  else if c == '\r' then ['\\', 'r']
  else if isPrintable c then [c]
  else
    let n := c.toNat
    if n < 0x100 then '\\' :: 'x' :: hex 2 n
    else if n < 0x10000 then '\\' :: 'u' :: hex 4 n
    else '\\' :: 'U' :: hex 8 n

/-- The apostrophe, unless the text holds one and holds no double quotation mark. -/
def quotationMark (cs : List Char) : Char :=
  if cs.contains '\x27' && !cs.contains '\x22' then '\x22' else '\x27'

def quoted (s : String) : String :=
  let mark := quotationMark s.toList
  String.ofList (mark :: s.toList.flatMap (spell mark) ++ [mark])

end BusMachine.Text
