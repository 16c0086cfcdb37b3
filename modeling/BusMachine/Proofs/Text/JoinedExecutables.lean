import BusMachine.Proofs.Text.ExecutableText
import BusMachine.Proofs.Text.Newlines

/-!
Executable texts put together. With a line feed between them two texts hold the words of the one and
then those of the other, whatever the first of them ends in, and the line that is reported is found
where it stands.
-/
namespace BusMachine

open Text

/-- The error of a line that many lines further down. -/
def ExecutableError.moved (lines : Nat) (e : ExecutableError) : ExecutableError :=
  { e with line := e.line + lines }

namespace Executable

/-- Only the number of the line changes if other lines stand in front. -/
theorem Spells.readLines_moved {ahead before after : List (List Char)} {l : List Char}
    {xs ys : List Int} (first : Spells ahead xs) (second : Spells before ys) (bad : Unreadable l) :
    Executable.readLines 1 (ahead ++ (before ++ l :: after)) =
      .error (ExecutableError.moved ahead.length ⟨1 + before.length, String.ofList (trim l)⟩) := by
  have line : 1 + (ahead ++ before).length = 1 + before.length + ahead.length := by
    rw [List.length_append]
    omega
  rw [← List.append_assoc, (first.append second).readLines_unreadable bad, line]
  rfl

theorem readLines_append_blank (n : Nat) (ls : List (List Char)) :
    readLines n (ls ++ [[]]) = readLines n ls := by
  have blank : Spells [[]] [] := .blank rfl .nil
  rcases spells_or_unreadable ls with ⟨words, spells⟩ | ⟨before, words, l, after, rfl, spells, bad⟩
  · rw [(spells.append blank).readLines, spells.readLines, List.append_nil]
  · rw [List.append_assoc, List.cons_append, spells.readLines_unreadable bad,
      spells.readLines_unreadable bad]

theorem ofText_ended (text : String) : ofText text = readLines 1 (lines (text ++ "\n").toList) := by
  have ended : (text ++ "\n").toList = text.toList ++ ['\n'] := String.toList_append
  rw [ofText, ofChars, ended]
  rcases lines_ended text.toList with same | more
  · rw [same]
  · rw [more, readLines_append_blank]

theorem ofText_joined (front back : String) :
    ofText (front ++ "\n" ++ back) =
      readLines 1 (lines (front ++ "\n").toList ++ lines back.toList) := by
  have ended : (front ++ "\n").toList = front.toList ++ ['\n'] := String.toList_append
  have chars : (front ++ "\n" ++ back).toList = front.toList ++ '\n' :: back.toList := by
    rw [String.toList_append, ended, List.append_assoc, List.singleton_append]
  rw [ofText, ofChars, chars, lines_joined, ended]

/-- A text put behind another with a line feed between them adds its words to those of the other. If
both hold a line that is no word, the one in front is reported; a line of the text behind is
reported further down. -/
theorem joined_texts_hold_joined_words (front back : String) :
    (∀ words, ofText (front ++ "\n" ++ back) = .ok words ↔
        ∃ xs ys, ofText front = .ok xs ∧ ofText back = .ok ys ∧ words = xs ++ ys) ∧
      (∀ e, ofText front = .error e → ofText (front ++ "\n" ++ back) = .error e) ∧
      ∀ xs e, ofText front = .ok xs → ofText back = .error e →
        ofText (front ++ "\n" ++ back) =
          .error (e.moved (lines (front ++ "\n").toList).length) := by
  have behind : ofText back = readLines 1 (lines back.toList) := rfl
  rw [ofText_joined, ofText_ended front, behind]
  rcases spells_or_unreadable (lines (front ++ "\n").toList) with
    ⟨xs, first⟩ | ⟨before, xs, l, after, split, first, bad⟩
  · rcases spells_or_unreadable (lines back.toList) with
      ⟨ys, second⟩ | ⟨before, ys, l, after, split, second, bad⟩
    · rw [(first.append second).readLines, first.readLines, second.readLines]
      simp [eq_comm]
    · rw [split, first.readLines_moved second bad, first.readLines, second.readLines_unreadable bad]
      simp
  · rw [split, List.append_assoc, List.cons_append, first.readLines_unreadable bad,
      first.readLines_unreadable bad]
    simp

/-- A text that ends in a carriage return, to which the line feed behind it is added. -/
theorem line_behind_return_is_moved :
    ofText "9\r\n\n 63\r" = .ok [9, 63] ∧ ofText "7\x0c\nseven" = .error ⟨3, "seven"⟩ ∧
      ofText ("9\r\n\n 63\r" ++ "\n" ++ "7\x0c\nseven") = .error ⟨6, "seven"⟩ ∧
      ofText ("7\x0c\nseven" ++ "\n" ++ "9\r\n\n 63\r") = .error ⟨3, "seven"⟩ ∧
      ofText ("9\r\n\n 63\r" ++ "\n" ++ "9\r\n\n 63\r") = .ok [9, 63, 9, 63] := by
  have words : ofText "9\r\n\n 63\r" = .ok [9, 63] := by decide +kernel
  have refused : ofText "7\x0c\nseven" = .error ⟨3, "seven"⟩ := by decide +kernel
  obtain ⟨-, -, moved⟩ := joined_texts_hold_joined_words "9\r\n\n 63\r" "7\x0c\nseven"
  obtain ⟨-, first, -⟩ := joined_texts_hold_joined_words "7\x0c\nseven" "9\r\n\n 63\r"
  obtain ⟨joined, -, -⟩ := joined_texts_hold_joined_words "9\r\n\n 63\r" "9\r\n\n 63\r"
  exact ⟨words, refused, moved _ _ words refused, first _ refused,
    (joined _).mpr ⟨_, _, words, words, rfl⟩⟩

end Executable

end BusMachine
