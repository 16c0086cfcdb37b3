namespace BusMachine.Text

def lower (cs : List Char) : List Char := cs.map Char.toLower

def lowerCase (s : String) : String := String.ofList (lower s.toList)

end BusMachine.Text
