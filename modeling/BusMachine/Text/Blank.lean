namespace BusMachine.Text

/-- The white space of Unicode together with the four information separators U+001C to U+001F. -/
def isBlank (c : Char) : Bool :=
  let n := c.toNat
  (9 ≤ n && n ≤ 13) || (28 ≤ n && n ≤ 32) || n == 0x85 || n == 0xA0 || n == 0x1680 ||
    (0x2000 ≤ n && n ≤ 0x200A) || n == 0x2028 || n == 0x2029 || n == 0x202F || n == 0x205F ||
    n == 0x3000

def trimEndOf (p : Char → Bool) (cs : List Char) : List Char :=
  (cs.reverse.dropWhile p).reverse

def trimOf (p : Char → Bool) (cs : List Char) : List Char :=
  trimEndOf p (cs.dropWhile p)

def trim (cs : List Char) : List Char := trimOf isBlank cs

/-- The pieces between the characters satisfying `p`; there is always one more piece than cuts. -/
def splitAtEach (p : Char → Bool) : List Char → List (List Char)
  | [] => [[]]
  | c :: cs => if p c then [] :: splitAtEach p cs else (splitAtEach p cs).modifyHead (c :: ·)

theorem splitAtEach_ne_nil (p : Char → Bool) (cs : List Char) : splitAtEach p cs ≠ [] := by
  induction cs with
  | nil => simp [splitAtEach]
  | cons c cs ih => by_cases h : p c <;> simp [splitAtEach, h, ih]

def words (cs : List Char) : List (List Char) :=
  (splitAtEach isBlank cs).filter (fun w => !w.isEmpty)

def trimmed (s : String) : String := String.ofList (trim s.toList)

end BusMachine.Text
