import Mathlib.Data.List.Forall2
import BusMachine.Proofs.Text.Blanks

/-!
Line ends. Where any line end counts, unifying them changes no line. Where only line feeds count, it
takes the carriage returns off the ends of lines, if there are no others.
-/
namespace BusMachine.Text

/-- The text as it is read from a file. -/
def unified (t : String) : String := String.ofList (unifyNewlines t.toList)

/-- Every carriage return stands before a line feed. -/
def Paired (cs : List Char) : Prop :=
  ∀ i < cs.length, cs[i]? = some '\r' → cs[i + 1]? = some '\n'

instance (cs : List Char) : Decidable (Paired cs) :=
  inferInstanceAs (Decidable (∀ i < cs.length, cs[i]? = some '\r' → cs[i + 1]? = some '\n'))

/-- The same line, or with a carriage return at its end. -/
def EndsAlike (l l' : List Char) : Prop := l = l' ∨ l = l' ++ ['\r']

variable {cs : List Char} {c : Char}

theorem lines_cons (other : c ≠ '\r') (cs : List Char) :
    lines (c :: cs) = if endsLine c then [] :: lines cs
      else match lines cs with
        | [] => [[c]]
        | l :: ls => (c :: l) :: ls :=
  lines.eq_3 c cs (fun _ back => absurd back other)

theorem unifyNewlines_cons (other : c ≠ '\r') (cs : List Char) :
    unifyNewlines (c :: cs) = c :: unifyNewlines cs := by
  rw [unifyNewlines.eq_3 c cs (fun _ back => absurd back other), if_neg]
  simpa using other

theorem lines_unifyNewlines (cs : List Char) : lines (unifyNewlines cs) = lines cs := by
  induction cs using unifyNewlines.induct with
  | case1 => rfl
  | case2 cs ih =>
    rw [unifyNewlines, lines_cons (by decide), ih]
    rfl
  | case3 c cs alone ih =>
    by_cases back : c = '\r'
    · subst back
      have first : unifyNewlines ('\r' :: cs) = '\n' :: unifyNewlines cs :=
        unifyNewlines.eq_3 '\r' cs alone
      have second : lines ('\r' :: cs) = [] :: lines cs := lines.eq_3 '\r' cs alone
      rw [first, second, lines_cons (by decide), ih]
      rfl
    · rw [unifyNewlines_cons back, lines_cons back, lines_cons back, ih]

theorem lines_ne_nil (full : cs ≠ []) : lines cs ≠ [] := by
  induction cs using unifyNewlines.induct with
  | case1 => exact absurd rfl full
  | case2 cs _ => exact List.cons_ne_nil _ _
  | case3 c cs alone _ =>
    rw [lines.eq_3 c cs alone]
    split
    · exact List.cons_ne_nil _ _
    · split <;> exact List.cons_ne_nil _ _

/-- A carriage return takes only a line feed right behind it into its line end. -/
theorem alone_append_feed (alone : ∀ rest, c = '\r' → cs = '\n' :: rest → False)
    (last : ¬(c = '\r' ∧ cs = [])) (after : List Char) :
    ∀ rest, c = '\r' → cs ++ '\n' :: after = '\n' :: rest → False := by
  intro rest back feed
  cases cs with
  | nil => exact last ⟨back, rfl⟩
  | cons d ds =>
    cases feed
    exact alone ds back rfl

/-- Where a text is ended by a line feed, another may follow without a change to the lines
of either. -/
theorem lines_joined (front back : List Char) :
    lines (front ++ '\n' :: back) = lines (front ++ ['\n']) ++ lines back := by
  induction front using unifyNewlines.induct with
  | case1 =>
    rw [List.nil_append, lines_cons (by decide)]
    rfl
  | case2 cs ih =>
    rw [List.cons_append, List.cons_append, lines, ih]
    rfl
  | case3 c cs alone ih =>
    by_cases last : c = '\r' ∧ cs = []
    · obtain ⟨rfl, rfl⟩ := last
      rfl
    · have full : cs ++ ['\n'] ≠ [] := List.append_ne_nil_of_right_ne_nil _ (List.cons_ne_nil _ _)
      obtain ⟨l, ls, split⟩ := List.exists_cons_of_ne_nil (lines_ne_nil full)
      rw [List.cons_append, List.cons_append, lines.eq_3 _ _ (alone_append_feed alone last back),
        lines.eq_3 _ _ (alone_append_feed alone last []), ih, split]
      split <;> rfl

/-- A line feed at the end ends the last line, unless that is ended already: then it ends a blank
line behind it. -/
theorem lines_ended (cs : List Char) :
    lines (cs ++ ['\n']) = lines cs ∨ lines (cs ++ ['\n']) = lines cs ++ [[]] := by
  induction cs using unifyNewlines.induct with
  | case1 => exact .inr rfl
  | case2 cs ih => exact ih.imp (congrArg ([] :: ·)) (congrArg ([] :: ·))
  | case3 c cs alone ih =>
    by_cases last : c = '\r' ∧ cs = []
    · obtain ⟨rfl, rfl⟩ := last
      exact .inl rfl
    · rw [List.cons_append, lines.eq_3 _ _ (alone_append_feed alone last []), lines.eq_3 _ _ alone]
      rcases ih with same | more
      · rw [same]
        exact .inl rfl
      · rw [more]
        split
        · exact .inr rfl
        · cases lines cs with
          | nil => exact .inl rfl
          | cons l ls => exact .inr rfl

theorem lines_cut {l : List Char} (whole : ∀ c ∈ l, endsLine c = false) (rest : List Char) :
    lines (l ++ '\n' :: rest) = l :: lines rest := by
  induction l with
  | nil =>
    rw [List.nil_append, lines_cons (by decide)]
    rfl
  | cons c l ih =>
    have inner : endsLine c = false := whole c (List.mem_cons_self ..)
    have other : c ≠ '\r' := by
      rintro rfl
      cases inner
    rw [List.cons_append, lines_cons other, inner,
      ih (fun d hd => whole d (List.mem_cons_of_mem c hd))]
    rfl

theorem lines_of_whole {l : List Char} (full : l ≠ []) (whole : ∀ c ∈ l, endsLine c = false) :
    lines l = [l] := by
  have ended : lines (l ++ ['\n']) = [l] := lines_cut whole []
  rcases lines_ended l with same | more
  · rw [← same, ended]
  · have length := congrArg List.length (ended.symm.trans more)
    rw [List.length_append, List.length_singleton, List.length_singleton] at length
    exact absurd (List.eq_nil_of_length_eq_zero (by omega)) (lines_ne_nil full)

theorem lines_intercalate {ls : List (List Char)} (full : ∀ l ∈ ls, l ≠ [])
    (whole : ∀ l ∈ ls, ∀ c ∈ l, endsLine c = false) : lines (['\n'].intercalate ls) = ls := by
  induction ls with
  | nil => rfl
  | cons l ls ih =>
    have first := whole l (List.mem_cons_self ..)
    cases ls with
    | nil => rw [List.intercalate_singleton, lines_of_whole (full l (List.mem_cons_self ..)) first]
    | cons l' ls =>
      rw [List.intercalate_cons_cons, List.append_assoc, List.singleton_append, lines_cut first,
        ih (fun k hk => full k (List.mem_cons_of_mem l hk)) (fun k hk =>
          whole k (List.mem_cons_of_mem l hk))]

theorem Paired.tail (h : Paired (c :: cs)) : Paired cs :=
  fun i bound back => h (i + 1) (Nat.succ_lt_succ bound) back

theorem Paired.feed (h : Paired ('\r' :: cs)) : ∃ rest, cs = '\n' :: rest := by
  have next : cs[0]? = some '\n' := h 0 (Nat.zero_lt_succ _) rfl
  cases cs with
  | nil => cases next
  | cons d rest =>
    cases next
    exact ⟨rest, rfl⟩

theorem EndsAlike.cons {l l' : List Char} (h : EndsAlike l l') (c : Char) :
    EndsAlike (c :: l) (c :: l') := by
  rcases h with rfl | rfl
  · exact .inl rfl
  · exact .inr rfl

theorem endsAlike_modifyHead {ls ls' : List (List Char)} (h : List.Forall₂ EndsAlike ls ls')
    (c : Char) :
    List.Forall₂ EndsAlike (ls.modifyHead (c :: ·)) (ls'.modifyHead (c :: ·)) := by
  cases h with
  | nil => exact .nil
  | cons first rest => exact .cons (first.cons c) rest

theorem splitLines_feed (cs : List Char) : splitLines ('\n' :: cs) = [] :: splitLines cs := rfl

theorem splitLines_cons (other : c ≠ '\n') (cs : List Char) :
    splitLines (c :: cs) = (splitLines cs).modifyHead (c :: ·) := by
  rw [splitLines, splitAtEach, if_neg]
  · rfl
  · simpa using other

theorem not_mem_of_splitLines {l : List Char} (mem : l ∈ splitLines cs) : '\n' ∉ l :=
  fun feed => Bool.noConfusion (splitAtEach_not mem '\n' feed)

theorem splitLines_intercalate {ls : List (List Char)} (full : ls ≠ [])
    (whole : ∀ l ∈ ls, '\n' ∉ l) :
    splitLines (['\n'].intercalate ls) = ls := by
  induction ls with
  | nil => exact absurd rfl full
  | cons l ls ih =>
    have first : ∀ c ∈ l, (c == '\n') = false := by
      intro c hc
      refine beq_false_of_ne ?_
      rintro rfl
      exact whole l (List.mem_cons_self ..) hc
    cases ls with
    | nil => rw [List.intercalate_singleton, splitLines, splitAtEach_of_none first]
    | cons l' ls =>
      have rest := ih (List.cons_ne_nil _ _) (fun m hm => whole m (List.mem_cons_of_mem l hm))
      rw [List.intercalate_cons_cons, List.append_assoc, List.singleton_append, splitLines,
        splitAtEach_cut first rfl, ← splitLines, rest]

/-- Unified line ends cut a text at the same places. -/
theorem splitLines_unifyNewlines (h : Paired cs) :
    List.Forall₂ EndsAlike (splitLines cs) (splitLines (unifyNewlines cs)) := by
  induction cs using unifyNewlines.induct with
  | case1 => exact .cons (.inl rfl) .nil
  | case2 cs ih =>
    rw [unifyNewlines, splitLines_cons (by decide), splitLines_feed, splitLines_feed]
    exact .cons (.inr rfl) (ih h.tail.tail)
  | case3 c cs alone ih =>
    have other : c ≠ '\r' := by
      rintro rfl
      obtain ⟨rest, rfl⟩ := h.feed
      exact alone rest rfl rfl
    rw [unifyNewlines_cons other]
    by_cases feed : c = '\n'
    · subst feed
      exact .cons (.inl rfl) (ih h.tail)
    · rw [splitLines_cons feed, splitLines_cons feed]
      exact endsAlike_modifyHead (ih h.tail) c

theorem EndsAlike.trim_eq {l l' : List Char} (h : EndsAlike l l') : trim l = trim l' := by
  rcases h with rfl | rfl
  · rfl
  · exact trim_append (List.forall_mem_singleton.mpr rfl)

theorem EndsAlike.trimEndOf_eq {l l' : List Char} (h : EndsAlike l l') :
    trimEndOf (· == '\r') l = trimEndOf (· == '\r') l' := by
  rcases h with rfl | rfl
  · rfl
  · exact trimEndOf_append (List.forall_mem_singleton.mpr rfl)

theorem EndsAlike.takeWhile {l l' : List Char} (h : EndsAlike l l') {p : Char → Bool}
    (passes : p '\r' = true) :
    EndsAlike (l.takeWhile p) (l'.takeWhile p) := by
  rcases h with rfl | rfl
  · exact .inl rfl
  · rw [List.takeWhile_append]
    split
    · next whole =>
      have all : l'.takeWhile p = l' := (List.takeWhile_prefix p).eq_of_length whole
      rw [all, List.takeWhile_cons, if_pos passes]
      exact .inr rfl
    · exact .inl rfl

end BusMachine.Text
