import BusMachine.Text.Blank
import BusMachine.Text.Digit
import BusMachine.Text.Quoted

/-! Decimal integers, with digits of any script and single underscores between digits. -/
namespace BusMachine

open Text

inductive NumeralError where
  | notInteger (text : String)
  | tooLong (digits : Nat)
  | unwritable
deriving DecidableEq, Repr

namespace Numeral

/-- The most digits a numeral may have. Leading zeros count, signs and underscores do not. -/
def digitLimit : Nat := 4300

/-- The blanks that may surround a numeral: all but the information separators. -/
def isMargin (c : Char) : Bool := isBlank c && !(28 ≤ c.toNat && c.toNat ≤ 31)

def isDigitOrMark (c : Char) : Bool := c == '_' || (digitValue? c).isSome

def wellGrouped (run : List Char) : Bool :=
  (splitAtEach (· == '_') run).all (fun group => !group.isEmpty)

def value (digits : List Nat) : Nat := digits.foldl (fun n d => 10 * n + d) 0

/-- The number of digits is judged before anything behind them. -/
def readUnsigned (text : String) (cs : List Char) : Except NumeralError Nat :=
  let run := cs.takeWhile isDigitOrMark
  let rest := cs.dropWhile isDigitOrMark
  let digits := run.filterMap digitValue?
  if !wellGrouped run then .error (.notInteger text)
  else if digitLimit < digits.length then .error (.tooLong digits.length)
  else if !rest.all isMargin then .error (.notInteger text)
  else .ok (value digits)

def read (text : String) : Except NumeralError Int :=
  match text.toList.dropWhile isMargin with
  | '-' :: cs => (readUnsigned text cs).map (fun n => -(n : Int))
  | '+' :: cs => (readUnsigned text cs).map (fun n => (n : Int))
  | cs => (readUnsigned text cs).map (fun n => (n : Int))

def writableBound : Nat := Nat.pow 10 digitLimit

def isWritable (n : Int) : Bool := n.natAbs < writableBound

def limitMessage (detail : String) : String :=
  "Exceeds the limit (" ++ toString digitLimit ++ " digits) for integer string conversion" ++
    detail ++
    "; use sys.set_int_max_str_digits() to increase the limit"

end Numeral

/-- The quoted text is cut after 200 characters. -/
def NumeralError.message : NumeralError → String
  | .notInteger text =>
    "invalid literal for int() with base 10: " ++ String.ofList ((quoted text).toList.take 200)
  | .tooLong digits => Numeral.limitMessage (": value has " ++ toString digits ++ " digits")
  | .unwritable => Numeral.limitMessage ""

/-- The integers that a host writes: those of no more digits than a numeral may have, or all. -/
inductive Writing where
  | limited
  | total
deriving DecidableEq, Repr

namespace Writing

def allows : Writing → Int → Bool
  | .limited, n => Numeral.isWritable n
  | .total, _ => true

def require {α : Type} (k : Writing) (ns : List Int) (made : α) : Except NumeralError α :=
  if ns.all k.allows then .ok made else .error .unwritable

def message (k : Writing) (n : Int) (text : String) : String :=
  if k.allows n then text else NumeralError.unwritable.message

end Writing

end BusMachine
