import Mathlib.Data.List.Forall2
import BusMachine.Proofs.Text.Decimal
import BusMachine.Assembly.Operand

/-!
The grammar of source text, said without the recognizers of the assembler: which lines are
statements, how a declaration, a label and an instruction are spelled, and which statements of a
text are bad.
-/
namespace BusMachine.Grammar

open Text

/-- A letter followed by letters and digits, all of them ASCII. -/
def Identifier (name : String) : Prop :=
  ∃ c cs, name.toList = c :: cs ∧ c.isAlpha = true ∧ ∀ d ∈ cs, d.isAlphanum = true

/-- An instruction in any letter case. -/
def Mnemonic (word : String) : Prop := ∃ c : Opcode, lowerCase word = c.mnemonic

def Declaration (text : String) : Prop := Identifier text ∧ ¬ Mnemonic text

/-- A name and a colon, with or without blanks between them. -/
def Label (text name : String) : Prop :=
  Identifier name ∧
    ∃ gap, (∀ c ∈ gap, isBlank c = true) ∧ text.toList = name.toList ++ gap ++ [':']

def HasKind (word : String) : OperandKind → Prop
  | .register => ∃ name, Identifier name ∧ word = "%" ++ name
  | .memory => Identifier word
  | .immediate => ∃ n, Decimal word.toList n

/-- The operand that a word is. Of an immediate only the value is kept. -/
inductive Reads : String → Operand → Prop where
  | register {name : String} : Identifier name → Reads ("%" ++ name) (.register name)
  | symbol {name : String} : Identifier name → Reads name (.symbol name)
  | literal {word : String} {n : Int} : Decimal word.toList n → Reads word (.literal (toString n))

/-- The mnemonic of an instruction in any letter case, followed by operands of its kinds. -/
def Spells (text : String) (c : Opcode) : Prop :=
  ∃ first operands, Statement.wordsOf text = first :: operands ∧ lowerCase first = c.mnemonic ∧
    List.Forall₂ HasKind operands c.kinds

/-- The instruction that a text spells, with the operands that its words are. -/
def ReadsAs (text : String) (c : Opcode) (operands : List Operand) : Prop :=
  ∃ first words, Statement.wordsOf text = first :: words ∧ lowerCase first = c.mnemonic ∧
    List.Forall₂ Reads words operands ∧ operands.map Operand.kind = c.kinds

/-- The line of a source text with that number, counted from 1. -/
def RawLine (source : String) (number : Nat) (line : List Char) : Prop :=
  1 ≤ number ∧ (splitLines source.toList)[number - 1]? = some line

/-- The statements of a source text, by number of line: the lines that hold more than blanks
and a comment. -/
structure Statements (source : String) (ss : List Statement) : Prop where
  ordered : (ss.map Statement.line).Pairwise (· < ·)
  complete : ∀ s, s ∈ ss ↔ ∃ line, RawLine source s.line line ∧
    s.raw = String.ofList (trimEndOf (· == '\r') line) ∧
    s.text = String.ofList (trim (line.takeWhile (· != ';'))) ∧ s.text ≠ ""

/-- Declarations stand in front of the body, as many as there are. -/
structure Divides (declarations body : List Statement) : Prop where
  declared : ∀ s ∈ declarations, Declaration s.text
  ended : ∀ s, body.head? = some s → ¬ Declaration s.text

/-- The bad statements of a text with those declarations and that body. -/
inductive Bad (declarations body : List Statement) : Statement → Prop where
  | declaredAgain {before after : List Statement} {s e : Statement} :
      declarations = before ++ s :: after → e ∈ before → e.text = s.text → Bad declarations body s
  | declaredLabel {s e : Statement} {name : String} :
      s ∈ body → Label s.text name → e ∈ declarations → e.text = name → Bad declarations body s
  | repeatedLabel {before after : List Statement} {s e : Statement} {name : String} :
      body = before ++ s :: after → Label s.text name → e ∈ before → Label e.text name →
      Bad declarations body s
  | unknown {s : Statement} :
      s ∈ body → (∀ name, ¬ Label s.text name) → (∀ c, ¬ Spells s.text c) → Bad declarations body s

end BusMachine.Grammar
