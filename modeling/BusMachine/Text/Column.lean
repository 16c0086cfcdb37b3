namespace BusMachine.Text

def alignRight (width : Nat) (s : String) : String := String.ofList (s.toList.leftpad width ' ')

def alignLeft (width : Nat) (s : String) : String := String.ofList (s.toList.rightpad width ' ')

/-- The zeros stand between the sign and the digits, and the sign counts towards the width. -/
def zeroPadded (width : Nat) (n : Int) : String :=
  let digits := Nat.toDigits 10 n.natAbs
  if n < 0 then String.ofList ('-' :: digits.leftpad (width - 1) '0')
  else String.ofList (digits.leftpad width '0')

end BusMachine.Text
