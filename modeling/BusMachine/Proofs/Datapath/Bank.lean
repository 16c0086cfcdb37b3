import BusMachine.Datapath.Memory

/-!
A bank keeps its cells and a latch that points at one of them, so that after the address phase the
data phase cannot fail.
-/
namespace BusMachine.Memory

/-- As many cells as the bank was made with, and a latch at one of them. -/
structure Intact (size : Nat) (b : Memory) : Prop where
  cells : b.size = size
  latch : b.latch < size

theorem locate_of_inside {b : Memory} {a : Int} (bank : String) (low : 0 ≤ a) (high : a < b.size) :
    b.locate bank a = .ok a.toNat := by
  simp only [locate, if_pos (And.intro low high)]

theorem locate_of_outside {b : Memory} {a : Int} (bank : String) (outside : ¬(0 ≤ a ∧ a < b.size)) :
    b.locate bank a = .error (.address bank a b.size) := by
  simp only [locate, if_neg outside]

theorem select_of_inside {b : Memory} {a : Int} (bank : String) (low : 0 ≤ a) (high : a < b.size) :
    b.select bank a = .ok { b with latch := a.toNat } := by
  simp only [select, locate_of_inside bank low high, Except.map]

theorem select_of_outside {b : Memory} {a : Int} (bank : String) (outside : ¬(0 ≤ a ∧ a < b.size)) :
    b.select bank a = .error (.address bank a b.size) := by
  simp only [select, locate_of_outside bank outside, Except.map]

theorem peek_of_inside {b : Memory} {a : Int} (bank : String) (low : 0 ≤ a) (high : a < b.size) :
    b.peek bank a = .ok (b.cells.getD a.toNat 0) := by
  simp only [peek, locate_of_inside bank low high, Except.map]

theorem peek_of_outside {b : Memory} {a : Int} (bank : String) (outside : ¬(0 ≤ a ∧ a < b.size)) :
    b.peek bank a = .error (.address bank a b.size) := by
  simp only [peek, locate_of_outside bank outside, Except.map]

theorem poke_of_inside {b : Memory} {a : Int} (bank : String) (v : Int) (low : 0 ≤ a)
    (high : a < b.size) :
    b.poke bank a v = .ok { b with cells := b.cells.setIfInBounds a.toNat v } := by
  simp only [poke, locate_of_inside bank low high, Except.map]

theorem poke_of_outside {b : Memory} {a : Int} (bank : String) (v : Int)
    (outside : ¬(0 ≤ a ∧ a < b.size)) :
    b.poke bank a v = .error (.address bank a b.size) := by
  simp only [poke, locate_of_outside bank outside, Except.map]

theorem exists_load {b : Memory} {words : List Int} {base : Int} (low : 0 ≤ base)
    (fits : base + words.length ≤ b.size) : ∃ b', b.load words base = .ok b' := by
  rw [load, if_neg (not_or.mpr ⟨Int.not_lt.mpr low, Int.not_lt.mpr fits⟩)]
  exact ⟨_, rfl⟩

theorem locate_lt {b : Memory} {bank : String} {a : Int} {n : Nat} (h : b.locate bank a = .ok n) :
    n < b.size := by
  unfold locate at h
  split at h
  · rename_i inside
    cases h
    omega
  · contradiction

theorem ofSize_ok {host : Host} {n : Int} {b : Memory} (made : ofSize host n = .ok b) :
    b = blank n.toNat ∧ 0 < n ∧ n < 9223372036854775808 := by
  unfold ofSize cellCount at made
  split at made
  · next positive =>
    split at made
    · cases made
    · next indexable =>
      split at made
      · cases made
      · cases made
        have range : -9223372036854775808 ≤ n ∧ n < 9223372036854775808 := by
          simpa [Position.isIndexable] using indexable
        exact ⟨rfl, positive, range.2⟩
  · cases made

theorem blank_intact {size : Nat} (positive : 0 < size) : Intact size (blank size) :=
  ⟨Array.size_replicate, positive⟩

theorem select_intact {size : Nat} {b b' : Memory} {bank : String} {a : Int} (h : Intact size b)
    (selected : b.select bank a = .ok b') : Intact size b' := by
  unfold select at selected
  cases found : b.locate bank a with
  | error f => simp [found, Except.map] at selected
  | ok n =>
    have inside := locate_lt found
    simp only [found, Except.map, Except.ok.injEq] at selected
    subst selected
    exact ⟨h.cells, h.cells ▸ inside⟩

theorem read_eq {size : Nat} {b : Memory} (h : Intact size b) :
    b.read = .ok (b.cells.getD b.latch 0) := by
  have inside : b.latch < b.cells.size := Nat.lt_of_lt_of_eq h.latch h.cells.symm
  simp only [read, Array.getElem?_eq_getElem inside, Array.getD_eq_getD_getElem?, Option.getD_some]

theorem store_eq {size : Nat} {b : Memory} (h : Intact size b) (v : Int) :
    b.store v = .ok { b with cells := b.cells.setIfInBounds b.latch v } := by
  have inside : b.latch < b.size := Nat.lt_of_lt_of_eq h.latch h.cells.symm
  simp only [store, if_pos inside]

theorem write_intact {size : Nat} {b : Memory} (h : Intact size b) (n : Nat) (v : Int) :
    Intact size { b with cells := b.cells.setIfInBounds n v } :=
  ⟨Array.size_setIfInBounds.trans h.cells, h.latch⟩

theorem write_cells {b : Memory} {n : Nat} (i : Nat) (v : Int) (inside : n < b.size) :
    (b.cells.setIfInBounds i v).getD n 0 = if i = n then v else b.cells.getD n 0 := by
  simp only [Array.getD_eq_getD_getElem?, Array.getElem?_setIfInBounds]
  split
  · next here =>
    subst here
    rw [if_pos (show i < b.cells.size from inside), Option.getD_some]
  · rfl

theorem poke_intact {size : Nat} {b b' : Memory} {bank : String} {a v : Int} (h : Intact size b)
    (poked : b.poke bank a v = .ok b') : Intact size b' := by
  unfold poke at poked
  cases found : b.locate bank a with
  | error f => simp [found, Except.map] at poked
  | ok n =>
    simp only [found, Except.map, Except.ok.injEq] at poked
    exact poked ▸ write_intact h n v

theorem load_intact {size : Nat} {b b' : Memory} {words : List Int} {base : Int} (h : Intact size b)
    (loaded : b.load words base = .ok b') : Intact size b' := by
  unfold load at loaded
  split at loaded
  · contradiction
  · rename_i fits
    cases loaded
    refine ⟨?_, h.latch⟩
    have total : b.cells.toList.length = size := h.cells
    have same : b.cells.size = size := h.cells
    simp only [Memory.size] at fits ⊢
    simp only [List.size_toArray, List.length_append, List.length_take, List.length_drop, total]
    omega

theorem load_latch {b b' : Memory} {words : List Int} {base : Int}
    (loaded : b.load words base = .ok b') :
    b'.latch = b.latch := by
  unfold load at loaded
  split at loaded
  · contradiction
  · cases loaded
    rfl

theorem load_cells {b b' : Memory} {words : List Int} {base : Int}
    (loaded : b.load words base = .ok b') (n : Nat) :
    b'.cells.getD n 0 = (if base ≤ n then words[(n - base).toNat]? else
      none).getD (b.cells.getD n 0) := by
  unfold load at loaded
  split at loaded
  · contradiction
  · rename_i fits
    obtain ⟨k, rfl⟩ := Int.eq_ofNat_of_zero_le (Int.not_lt.mp (not_or.mp fits).1)
    have room : k + words.length ≤ b.cells.toList.length :=
      Int.ofNat_le.mp (Int.not_lt.mp (not_or.mp fits).2)
    have front : (b.cells.toList.take k).length = k := by
      rw [List.length_take]
      omega
    cases loaded
    simp only [Array.getD_eq_getD_getElem?, Int.toNat_natCast, List.append_assoc,
      ← Array.getElem?_toList]
    by_cases before : n < k
    · rw [List.getElem?_append_left (by omega), List.getElem?_take_of_lt before, if_neg (by omega),
        Option.getD_none]
    · have place : ((n : Int) - k).toNat = n - k := by omega
      rw [List.getElem?_append_right (by omega), front, if_pos (by omega), place]
      by_cases within : n - k < words.length
      · rw [List.getElem?_append_left within, List.getElem?_eq_getElem within, Option.getD_some,
          Option.getD_some]
      · have behind : k + words.length + (n - k - words.length) = n := by omega
        rw [List.getElem?_append_right (Nat.not_lt.mp within), List.getElem?_drop, behind,
          List.getElem?_eq_none (Nat.not_lt.mp within), Option.getD_none]

theorem clear_intact {size : Nat} {b : Memory} (h : Intact size b) : Intact size b.clear := by
  have positive : 0 < size := Nat.lt_of_le_of_lt (Nat.zero_le _) h.latch
  have same := blank_intact positive
  rwa [← h.cells] at same ⊢

end BusMachine.Memory
