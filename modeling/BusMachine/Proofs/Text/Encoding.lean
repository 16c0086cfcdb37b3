import BusMachine.Text.Utf8

/-!
Every text survives being encoded and decoded: the first byte of a character announces how many
follow, and its payload with theirs is the character again.
-/
namespace BusMachine.Text.Utf8

/-- A byte that may follow a first byte. -/
def Follows (b : UInt8) : Prop := 0x80 ≤ b.toNat ∧ b.toNat ≤ 0xBF

variable {a b c d : UInt8} {position : Nat} {rest : List UInt8}

theorem toNat_ofNat {n : Nat} (small : n < 256) : (UInt8.ofNat n).toNat = n := by
  rw [UInt8.toNat_ofNat']
  exact Nat.mod_eq_of_lt small

theorem isContinuation_of_follows (h : Follows b) : isContinuation b = true := by
  obtain ⟨low, high⟩ := h
  simp [isContinuation, UInt8.le_iff_toNat_le, UInt8.lt_iff_toNat_lt]
  omega

theorem announcement_single (range : a.toNat < 0x80) : announcement a = .single := by
  simp [announcement, UInt8.lt_iff_toNat_lt, range]

theorem announcement_two (range : 0xC2 ≤ a.toNat ∧ a.toNat < 0xE0) :
    announcement a = .sequence 1 0x80 0xBF := by
  have notSingle : ¬ a.toNat < 128 := by omega
  have valid : ¬ a.toNat < 194 := by omega
  simp [announcement, UInt8.lt_iff_toNat_lt, notSingle, valid, range.2]

theorem announcement_three (range : 0xE0 ≤ a.toNat ∧ a.toNat < 0xF0) (follows : Follows b)
    (whole : a.toNat = 0xE0 → 0xA0 ≤ b.toNat) (scalar : a.toNat = 0xED → b.toNat ≤ 0x9F) :
    ∃ low high, announcement a = .sequence 2 low high ∧ (b < low || high < b) = false := by
  obtain ⟨from80, toBF⟩ := follows
  have notShort : ¬ a.toNat < 128 ∧ ¬ a.toNat < 194 ∧ ¬ a.toNat < 224 := by omega
  by_cases least : a.toNat = 0xE0
  · refine ⟨0xA0, 0xBF, ?_, ?_⟩
    · simp [announcement, UInt8.lt_iff_toNat_lt, ← UInt8.toNat_inj, least]
    · simp [UInt8.le_iff_toNat_le, whole least, toBF]
  · by_cases surrogate : a.toNat = 0xED
    · refine ⟨0x80, 0x9F, ?_, ?_⟩
      · simp [announcement, UInt8.lt_iff_toNat_lt, ← UInt8.toNat_inj, surrogate]
      · simp [UInt8.le_iff_toNat_le, scalar surrogate, from80]
    · refine ⟨0x80, 0xBF, ?_, ?_⟩
      · simp [announcement, UInt8.lt_iff_toNat_lt, notShort, ← UInt8.toNat_inj, least, surrogate,
          range.2]
      · simp [UInt8.le_iff_toNat_le, from80, toBF]

theorem announcement_four (range : 0xF0 ≤ a.toNat ∧ a.toNat ≤ 0xF4) (follows : Follows b)
    (whole : a.toNat = 0xF0 → 0x90 ≤ b.toNat) (scalar : a.toNat = 0xF4 → b.toNat ≤ 0x8F) :
    ∃ low high, announcement a = .sequence 3 low high ∧ (b < low || high < b) = false := by
  obtain ⟨from80, toBF⟩ := follows
  have notShort : ¬ a.toNat < 128 ∧ ¬ a.toNat < 194 ∧ ¬ a.toNat < 224 ∧ ¬ a.toNat = 224 ∧
    ¬ a.toNat = 237 ∧
      ¬ a.toNat < 240 := by omega
  by_cases least : a.toNat = 0xF0
  · refine ⟨0x90, 0xBF, ?_, ?_⟩
    · simp [announcement, UInt8.lt_iff_toNat_lt, ← UInt8.toNat_inj, least]
    · simp [UInt8.le_iff_toNat_le, whole least, toBF]
  · by_cases greatest : a.toNat = 0xF4
    · refine ⟨0x80, 0x8F, ?_, ?_⟩
      · simp [announcement, UInt8.lt_iff_toNat_lt, ← UInt8.toNat_inj, greatest]
      · simp [UInt8.le_iff_toNat_le, scalar greatest, from80]
    · have between : a.toNat < 244 := by omega
      refine ⟨0x80, 0xBF, ?_, ?_⟩
      · simp [announcement, UInt8.lt_iff_toNat_lt, notShort, ← UInt8.toNat_inj, least, between]
      · simp [UInt8.le_iff_toNat_le, from80, toBF]

theorem map_cons (x : Char) (r : Except DecodeError (List Char)) :
    (do let cs ← r; return x :: cs) = r.map (x :: ·) := by
  cases r <;> rfl

theorem decodeFrom_one (range : a.toNat < 0x80) :
    decodeFrom position (a :: rest) =
      (decodeFrom (position + 1) rest).map (Char.ofNat a.toNat :: ·) := by
  rw [decodeFrom, announcement_single range]
  exact map_cons _ _

theorem decodeFrom_two (range : 0xC2 ≤ a.toNat ∧ a.toNat < 0xE0) (follows : Follows b) :
    decodeFrom position (a :: b :: rest) =
      (decodeFrom (position + 2) rest).map (Char.ofNat (codePoint a 32 [b]) :: ·) := by
  have inside : (b < 0x80 || 0xBF < b) = false := by
    simp [UInt8.le_iff_toNat_le, follows.1, follows.2]
  rw [decodeFrom, announcement_two range]
  simp only [inside, Bool.false_eq_true, if_false, beq_self_eq_true, if_true]
  exact map_cons _ _

theorem decodeFrom_three (range : 0xE0 ≤ a.toNat ∧ a.toNat < 0xF0) (follows : Follows b)
    (last : Follows c) (whole : a.toNat = 0xE0 → 0xA0 ≤ b.toNat)
    (scalar : a.toNat = 0xED → b.toNat ≤ 0x9F) :
    decodeFrom position (a :: b :: c :: rest) =
      (decodeFrom (position + 3) rest).map (Char.ofNat (codePoint a 16 [b, c]) :: ·) := by
  obtain ⟨low, high, announced, inside⟩ := announcement_three range follows whole scalar
  rw [decodeFrom, announced]
  simp only [inside, isContinuation_of_follows last, Bool.false_eq_true, Bool.not_true, if_false,
    beq_self_eq_true, if_true, (by decide : ((2 : Nat) == 1) = false)]
  exact map_cons _ _

theorem decodeFrom_four (range : 0xF0 ≤ a.toNat ∧ a.toNat ≤ 0xF4) (follows : Follows b)
    (third : Follows c) (last : Follows d) (whole : a.toNat = 0xF0 → 0x90 ≤ b.toNat)
    (scalar : a.toNat = 0xF4 → b.toNat ≤ 0x8F) :
    decodeFrom position (a :: b :: c :: d :: rest) =
      (decodeFrom (position + 4) rest).map (Char.ofNat (codePoint a 8 [b, c, d]) :: ·) := by
  obtain ⟨low, high, announced, inside⟩ := announcement_four range follows whole scalar
  rw [decodeFrom, announced]
  simp only [inside, isContinuation_of_follows third, isContinuation_of_follows last,
    Bool.false_eq_true, Bool.not_true, if_false, (by decide : ((3 : Nat) == 1) = false),
      (by decide : ((3 : Nat) == 2) = false)]
  exact map_cons _ _

theorem decodeFrom_encodeChar (x : Char) (position : Nat) (rest : List UInt8) :
    ∃ next, decodeFrom position (String.utf8EncodeChar x ++ rest) =
      (decodeFrom next rest).map (x :: ·) := by
  -- Surrogates are no characters, and neither are numbers past U+10FFFF.
  have scalar : x.toNat < 0xD800 ∨ 0xDFFF < x.toNat ∧ x.toNat < 0x110000 := x.valid
  have back : ∀ n, n = x.toNat → Char.ofNat n = x := by
    rintro n rfl
    exact Char.ofNat_toNat x
  have number : x.val.toNat = x.toNat := rfl
  rw [String.utf8EncodeChar]
  simp only [number]
  split
  · next small =>
    have first := toNat_ofNat (n := x.toNat) (by omega)
    refine ⟨position + 1, ?_⟩
    rw [List.singleton_append, decodeFrom_one (by omega), back _ first]
  split
  · next _ small =>
    have first := toNat_ofNat (n := x.toNat / 64 % 32 + 192) (by omega)
    have second := toNat_ofNat (n := x.toNat % 64 + 128) (by omega)
    refine ⟨position + 2, ?_⟩
    rw [List.cons_append, List.singleton_append, decodeFrom_two (by omega) ⟨by omega, by omega⟩,
      back]
    simp only [codePoint, List.foldl_cons, List.foldl_nil, first, second]
    omega
  split
  · next _ _ small =>
    have first := toNat_ofNat (n := x.toNat / 4096 % 16 + 224) (by omega)
    have second := toNat_ofNat (n := x.toNat / 64 % 64 + 128) (by omega)
    have third := toNat_ofNat (n := x.toNat % 64 + 128) (by omega)
    refine ⟨position + 3, ?_⟩
    rw [List.cons_append, List.cons_append, List.singleton_append,
      decodeFrom_three (by omega) ⟨by omega, by omega⟩ ⟨by omega, by omega⟩ (by omega) (by omega),
        back]
    simp only [codePoint, List.foldl_cons, List.foldl_nil, first, second, third]
    omega
  · have first := toNat_ofNat (n := x.toNat / 262144 % 8 + 240) (by omega)
    have second := toNat_ofNat (n := x.toNat / 4096 % 64 + 128) (by omega)
    have third := toNat_ofNat (n := x.toNat / 64 % 64 + 128) (by omega)
    have fourth := toNat_ofNat (n := x.toNat % 64 + 128) (by omega)
    refine ⟨position + 4, ?_⟩
    rw [List.cons_append, List.cons_append, List.cons_append, List.singleton_append,
      decodeFrom_four (by omega) ⟨by omega, by omega⟩ ⟨by omega, by omega⟩ ⟨by omega, by omega⟩
        (by omega) (by omega),
      back]
    simp only [codePoint, List.foldl_cons, List.foldl_nil, first, second, third, fourth]
    omega

theorem decodeFrom_encode (cs : List Char) (position : Nat) :
    decodeFrom position (encode cs) = .ok cs := by
  induction cs generalizing position with
  | nil => rfl
  | cons x cs ih =>
    obtain ⟨next, step⟩ := decodeFrom_encodeChar x position (encode cs)
    rw [encode, List.flatMap_cons, ← encode, step, ih]
    rfl

/-- Every text survives encoding and decoding. -/
theorem decode_encode (cs : List Char) : decode (encode cs) = .ok cs :=
  decodeFrom_encode cs 0

end BusMachine.Text.Utf8
