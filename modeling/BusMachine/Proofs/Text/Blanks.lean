import Mathlib.Data.List.TakeWhile
import BusMachine.Text.Lines

/-!
Trimmed text does not end in a blank, and the words of a text hold none.
-/
namespace BusMachine.Text

theorem trimEndOf_getLast? (p : Char → Bool) (cs : List Char) :
    ∀ c, (trimEndOf p cs).getLast? = some c → p c = false := by
  intro c h
  simp only [trimEndOf, List.getLast?_reverse] at h
  have stopped := List.head?_dropWhile_not p cs.reverse
  rw [h] at stopped
  exact stopped

theorem trimEndOf_append {p : Char → Bool} {xs ys : List Char} (all : ∀ c ∈ ys, p c = true) :
    trimEndOf p (xs ++ ys) = trimEndOf p xs := by
  simp only [trimEndOf, List.reverse_append]
  rw [List.dropWhile_append_of_pos (fun c hc => all c (List.mem_reverse.mp hc))]

theorem exists_trimEndOf (p : Char → Bool) (cs : List Char) :
    ∃ ys, cs = trimEndOf p cs ++ ys ∧ ∀ c ∈ ys, p c = true := by
  refine ⟨(cs.reverse.takeWhile p).reverse, ?_, ?_⟩
  · rw [trimEndOf, ← List.reverse_append, List.takeWhile_append_dropWhile, List.reverse_reverse]
  · intro c hc
    exact List.all_eq_true.mp List.all_takeWhile c (List.mem_reverse.mp hc)

theorem splitAtEach_not {p : Char → Bool} {cs w : List Char} (h : w ∈ splitAtEach p cs) :
    ∀ c ∈ w, p c = false := by
  induction cs generalizing w with
  | nil => simp_all [splitAtEach]
  | cons c cs ih =>
    by_cases cut : p c
    · simp only [splitAtEach, cut, if_true, List.mem_cons] at h
      rcases h with rfl | h
      · simp
      · exact ih h
    · simp only [splitAtEach, cut] at h
      rcases hs : splitAtEach p cs with _ | ⟨first, rest⟩
      · exact absurd hs (splitAtEach_ne_nil p cs)
      · rw [hs] at h ih
        simp only [Bool.false_eq_true, if_false, List.modifyHead_cons, List.mem_cons] at h
        rcases h with rfl | h
        · intro d hd
          rcases List.mem_cons.mp hd with rfl | hd
          · simpa using cut
          · exact ih (List.mem_cons_self ..) d hd
        · exact ih (List.mem_cons_of_mem _ h)

theorem none_of_any {p : Char → Bool} {l : List Char} (h : l.any p = false) :
    ∀ c ∈ l, p c = false := by
  simpa using h

theorem splitAtEach_of_none {p : Char → Bool} {l : List Char} (none : ∀ c ∈ l, p c = false) :
    splitAtEach p l = [l] := by
  induction l with
  | nil => rfl
  | cons c l ih =>
    rw [splitAtEach, none c (List.mem_cons_self ..),
      ih (fun d hd => none d (List.mem_cons_of_mem c hd))]
    rfl

theorem splitAtEach_append {p : Char → Bool} {c : Char} (cut : p c = true) (l rest : List Char) :
    splitAtEach p (l ++ c :: rest) = splitAtEach p l ++ splitAtEach p rest := by
  induction l with
  | nil => exact if_pos cut
  | cons d l ih =>
    rw [List.cons_append, splitAtEach, splitAtEach, ih]
    split
    · rfl
    · obtain ⟨first, others, split⟩ := List.exists_cons_of_ne_nil (splitAtEach_ne_nil p l)
      rw [split]
      rfl

theorem splitAtEach_cut {p : Char → Bool} {l : List Char} (none : ∀ c ∈ l, p c = false) {c : Char}
    (cut : p c = true) (rest : List Char) :
    splitAtEach p (l ++ c :: rest) = l :: splitAtEach p rest := by
  rw [splitAtEach_append cut, splitAtEach_of_none none, List.singleton_append]

theorem length_splitAtEach (p : Char → Bool) (l : List Char) :
    (splitAtEach p l).length = l.countP p + 1 := by
  induction l with
  | nil => rfl
  | cons c l ih =>
    rw [splitAtEach, List.countP_cons]
    split
    · rw [List.length_cons, ih]
    · rw [List.length_modifyHead, ih, Nat.add_zero]

theorem words_not_blank {cs w : List Char} (h : w ∈ words cs) :
    w ≠ [] ∧ ∀ c ∈ w, isBlank c = false := by
  obtain ⟨piece, full⟩ := List.mem_filter.mp h
  exact ⟨by simpa using full, splitAtEach_not piece⟩

theorem words_append {c : Char} (blank : isBlank c = true) (front back : List Char) :
    words (front ++ c :: back) = words front ++ words back := by
  rw [words, splitAtEach_append blank, List.filter_append]
  rfl

theorem words_of_not_blank {w : List Char} (full : w ≠ []) (dense : ∀ c ∈ w, isBlank c = false) :
    words w = [w] := by
  have kept : ∀ v ∈ [w], (!v.isEmpty) = true := by simpa using full
  rw [words, splitAtEach_of_none dense, List.filter_eq_self.mpr kept]

theorem trim_append {xs ys : List Char} (all : ∀ c ∈ ys, isBlank c = true) :
    trim (xs ++ ys) = trim xs := by
  have gone : ys.dropWhile isBlank = [] := List.dropWhile_eq_nil_iff.mpr all
  rw [trim, trimOf, List.dropWhile_append]
  split
  · next empty =>
    rw [gone, trim, trimOf, List.isEmpty_iff.mp empty]
  · exact trimEndOf_append all

theorem mem_of_mem_trim {cs : List Char} {c : Char} (mem : c ∈ trim cs) : c ∈ cs := by
  rw [trim, trimOf, trimEndOf, List.mem_reverse] at mem
  have kept : c ∈ cs.dropWhile isBlank := List.mem_reverse.mp ((List.dropWhile_sublist _).mem mem)
  exact (List.dropWhile_sublist _).mem kept

end BusMachine.Text
