import BusMachine.Files.Tree

/-!
What was written is read back, and writing a file leaves everything else in the tree as it is: the
ways through it, the other files, and the paths that lead nowhere.
-/
namespace BusMachine.FileTree

variable {t t' : FileTree} {p q : Path} {here there : Place} {bytes other : List UInt8}

theorem lookup_filter_ne {here there : Place} (nodes : List (Place × Node)) (apart : there ≠ here) :
    (nodes.filter (fun e => e.1 != here)).lookup there = nodes.lookup there := by
  induction nodes with
  | nil => rfl
  | cons e rest ih =>
    obtain ⟨place, node⟩ := e
    by_cases same : place = here
    · subst same
      rw [List.filter_cons_of_neg (by simp), ih, List.lookup_cons, beq_false_of_ne apart]
    · rw [List.filter_cons_of_pos (by simp [same]), List.lookup_cons, List.lookup_cons, ih]

theorem node?_put_of_ne (t : FileTree) (n : Node) (apart : there ≠ here) :
    (t.put here n).node? there = t.node? there := by
  simp only [node?, put, List.lookup_cons, beq_false_of_ne apart, lookup_filter_ne t.nodes apart]

/-- A place that is no directory is none of those that are always there. -/
theorem node?_put_self (n : Node) (free : t.node? here ≠ some .directory) :
    (t.put here n).node? here = some n := by
  have changeable : (here.all (· == "..") || here == ["/"]) = false :=
    Bool.eq_false_iff.mpr (fun special => free (by rw [node?, if_pos special]))
  simp only [node?, changeable, put, List.lookup_cons, beq_self_eq_true, Bool.false_eq_true,
    if_false]

theorem node?_put_directory (free : t.node? here ≠ some .directory) :
    (t.put here (.file bytes)).node? there = some .directory ↔ t.node? there = some .directory := by
  by_cases same : there = here
  · subst same
    rw [node?_put_self _ free]
    simp [free]
  · rw [node?_put_of_ne t _ same]

/-- A file that is put where no directory was changes no way through the tree. -/
theorem walk_put (free : t.node? here ≠ some .directory) (path : String) (names : List String)
    (start : Place) :
    ∀ last, (t.put here (.file bytes)).walk path start names = .ok last ↔
      t.walk path start names = .ok last := by
  intro last
  induction names generalizing start with
  | nil => rfl
  | cons name names ih =>
    by_cases way : t.node? start = some .directory
    · rw [walk, walk, way, (node?_put_directory free).mpr way]
      simp only
      split
      · rfl
      · exact ih _
    · have blocked : ∀ tree : FileTree, tree.node? start ≠ some .directory →
          tree.walk path start (name :: names) ≠ .ok last := by
        intro tree closed
        rw [walk]
        cases found : tree.node? start with
        | none => simp
        | some node =>
          cases node with
          | directory => exact absurd found closed
          | file _ => simp
      exact iff_of_false (blocked _ (mt (node?_put_directory free).mp way)) (blocked t way)

theorem place_put (free : t.node? here ≠ some .directory) (p : Path) (last : Place) :
    (t.put here (.file bytes)).place p = .ok last ↔ t.place p = .ok last := by
  simp only [place]
  split
  · rfl
  split
  · rfl
  exact walk_put free p.toString p.parts (start p) last

theorem read_eq_ok :
    t.read p = .ok bytes ↔ ∃ here, t.place p = .ok here ∧ t.node? here = some (.file bytes) := by
  rw [read]
  cases t.place p with
  | error e => simp [bind, Except.bind]
  | ok here =>
    cases found : t.node? here with
    | none => simp [bind, Except.bind, found, throw, throwThe, MonadExceptOf.throw]
    | some node =>
      cases node <;> simp [bind, Except.bind, found, throw, throwThe, MonadExceptOf.throw, pure,
        Except.pure]

/-- The bytes of the file at a place; a file that is not there yet has none. -/
def contents (t : FileTree) (here : Place) : List UInt8 :=
  match t.node? here with
  | some (.file bytes) => bytes
  | _ => []

/-- Files can be put wherever a path leads to and no directory is. -/
def Takes (t : FileTree) (p : Path) (here : Place) : Prop :=
  t.place p = .ok here ∧ t.node? here ≠ some .directory

theorem update_eq_ok {f : List UInt8 → List UInt8} :
    t.update p f = .ok t' ↔ ∃ here, t.Takes p here ∧
      t' = t.put here (.file (f (t.contents here))) := by
  rw [update]
  cases way : t.place p with
  | error e => simp [bind, Except.bind, Takes, way]
  | ok here =>
    have only : ∀ last, t.Takes p last ↔ last = here ∧ t.node? here ≠ some .directory := by
      intro last
      rw [Takes, way, Except.ok.injEq]
      exact ⟨fun h => ⟨h.1.symm, h.1 ▸ h.2⟩, fun h => ⟨h.1.symm, h.1 ▸ h.2⟩⟩
    simp only [only, and_assoc, exists_eq_left, bind, Except.bind, eq_comm (a := t')]
    cases found : t.node? here with
    | none => simp [contents, found, pure, Except.pure]
    | some node =>
      cases node with
      | file _ => simp [contents, found, pure, Except.pure]
      | directory => simp [throw, throwThe, MonadExceptOf.throw]

theorem write_eq_ok :
    t.write p bytes = .ok t' ↔ ∃ here, t.Takes p here ∧ t' = t.put here (.file bytes) :=
  update_eq_ok

theorem append_eq_ok :
    t.append p bytes = .ok t' ↔ ∃ here, t.Takes p here ∧
      t' = t.put here (.file (t.contents here ++ bytes)) :=
  update_eq_ok

theorem takes_put (free : t.node? here ≠ some .directory) :
    (t.put here (.file bytes)).Takes q there ↔ t.Takes q there := by
  rw [Takes, Takes, place_put free q there, Ne, Ne, node?_put_directory free]

theorem read_write (written : t.write p bytes = .ok t') : t'.read p = .ok bytes := by
  obtain ⟨here, ⟨way, free⟩, rfl⟩ := write_eq_ok.mp written
  exact read_eq_ok.mpr ⟨here, (place_put free p here).mpr way, node?_put_self _ free⟩

theorem read_put (free : t.node? here ≠ some .directory) (apart : t.place q ≠ .ok here)
    (read : t.read q = .ok other) : (t.put here (.file bytes)).read q = .ok other := by
  obtain ⟨there, way, found⟩ := read_eq_ok.mp read
  have distinct : there ≠ here := by
    rintro rfl
    exact apart way
  exact read_eq_ok.mpr ⟨there,
    (place_put free q there).mpr way, by rw [node?_put_of_ne t _ distinct, found]⟩

theorem read_append_nothing (read : t.read p = .ok bytes) (appended : t.append q [] = .ok t') :
    t'.read p = .ok bytes := by
  obtain ⟨here, ⟨-, free⟩, rfl⟩ := append_eq_ok.mp appended
  obtain ⟨there, way, found⟩ := read_eq_ok.mp read
  refine read_eq_ok.mpr ⟨there, (place_put free p there).mpr way, ?_⟩
  by_cases same : there = here
  · subst same
    rw [node?_put_self _ free, contents, found, List.append_nil]
  · rw [node?_put_of_ne t _ same, found]

/-- What cannot be appended to before a write cannot be appended to after it. -/
theorem append_after_write (written : t.write p bytes = .ok t') {before after : List UInt8}
    (stuck : ∀ u, t.append q before ≠ .ok u) (u : FileTree) : t'.append q after ≠ .ok u := by
  intro appended
  obtain ⟨here, ⟨-, free⟩, rfl⟩ := write_eq_ok.mp written
  obtain ⟨there, takes, -⟩ := append_eq_ok.mp appended
  exact stuck _ (append_eq_ok.mpr ⟨there, (takes_put free).mp takes, rfl⟩)

end BusMachine.FileTree
