import RamlSchema.Text.Utf8

/-!
# Decoding what was encoded

A character is one octet below 0x80 or a sequence of octets from 0x80 on, and the decoder finds in
front of any octets the character that was put there.
-/

namespace RamlSchema.Utf8

theorem encode_cons (c : Char) (cs : List Char) : encode (c :: cs) = encodeChar c ++ encode cs :=
  rfl

theorem encode_append (cs ds : List Char) : encode (cs ++ ds) = encode cs ++ encode ds :=
  List.flatMap_append

theorem length_encodeChar_pos (c : Char) : 0 < (encodeChar c).length := by
  unfold encodeChar
  dsimp only
  repeat' split
  all_goals exact Nat.succ_pos _

theorem length_le_length_encode (cs : List Char) : cs.length ≤ (encode cs).length := by
  induction cs with
  | nil => exact Nat.le_refl 0
  | cons c cs ih =>
      have hc := length_encodeChar_pos c
      rw [encode_cons, List.length_append, List.length_cons]
      omega

theorem toNat_toUInt8 {n : Nat} (h : n < 256) : n.toUInt8.toNat = n := by
  rw [Nat.toUInt8, UInt8.toNat_ofNat']
  omega

theorem isContinuation_iff {b : UInt8} :
    isContinuation b = true ↔ 0x80 ≤ b.toNat ∧ b.toNat ≤ 0xBF := by
  rw [isContinuation, Bool.and_eq_true, decide_eq_true_eq, decide_eq_true_eq,
    UInt8.le_iff_toNat_le, UInt8.le_iff_toNat_le]
  rfl

theorem startsPair_iff {a b : UInt8} :
    startsPair a b = true ↔ 0xC2 ≤ a.toNat ∧ a.toNat ≤ 0xDF ∧ isContinuation b = true := by
  rw [startsPair, Bool.and_eq_true, Bool.and_eq_true, decide_eq_true_eq, decide_eq_true_eq,
    UInt8.le_iff_toNat_le, UInt8.le_iff_toNat_le, and_assoc]
  rfl

theorem startsTriple_iff {a b : UInt8} :
    startsTriple a b = true ↔
      0xE0 ≤ a.toNat ∧ a.toNat ≤ 0xEF ∧ isContinuation b = true ∧
        (a.toNat = 0xE0 → 0xA0 ≤ b.toNat) ∧ (a.toNat = 0xED → b.toNat < 0xA0) := by
  simp only [startsTriple, Bool.and_eq_true, Bool.not_eq_true', Bool.and_eq_false_iff,
    beq_eq_false_iff_ne, decide_eq_true_eq, decide_eq_false_iff_not, ne_eq, ← UInt8.toNat_inj,
    UInt8.le_iff_toNat_le, UInt8.lt_iff_toNat_lt, UInt8.reduceToNat]
  grind

theorem startsQuad_iff {a b : UInt8} :
    startsQuad a b = true ↔
      0xF0 ≤ a.toNat ∧ a.toNat ≤ 0xF4 ∧ isContinuation b = true ∧
        (a.toNat = 0xF0 → 0x90 ≤ b.toNat) ∧ (a.toNat = 0xF4 → b.toNat < 0x90) := by
  simp only [startsQuad, Bool.and_eq_true, Bool.not_eq_true', Bool.and_eq_false_iff,
    beq_eq_false_iff_ne, decide_eq_true_eq, decide_eq_false_iff_not, ne_eq, ← UInt8.toNat_inj,
    UInt8.le_iff_toNat_le, UInt8.lt_iff_toNat_lt, UInt8.reduceToNat]
  grind

/-! ### One character -/

theorem toNat_valid (c : Char) :
    c.toNat < 0xD800 ∨ 0xDFFF < c.toNat ∧ c.toNat < 0x110000 :=
  c.valid

theorem encodeChar_ascii {c : Char} (h : c.toNat < 0x80) : encodeChar c = [c.toNat.toUInt8] := by
  rw [encodeChar, if_pos h]

/-- A character beyond ASCII has no octet of an ASCII character. -/
theorem le_of_mem_encodeChar {c : Char} (h : 0x80 ≤ c.toNat) {b : UInt8} (hb : b ∈ encodeChar c) :
    0x80 ≤ b.toNat := by
  have hvalid := toNat_valid c
  have hoctet : ∀ n, 0x80 ≤ n → n < 256 → b = n.toUInt8 → 0x80 ≤ b.toNat := by
    intro n hle hlt hb
    rw [hb, toNat_toUInt8 hlt]
    exact hle
  rw [encodeChar, if_neg (by omega)] at hb
  split at hb
  · simp only [List.mem_cons, List.not_mem_nil, or_false] at hb
    rcases hb with hb | hb <;> exact hoctet _ (by omega) (by omega) hb
  · split at hb
    · simp only [List.mem_cons, List.not_mem_nil, or_false] at hb
      rcases hb with hb | hb | hb <;> exact hoctet _ (by omega) (by omega) hb
    · simp only [List.mem_cons, List.not_mem_nil, or_false] at hb
      rcases hb with hb | hb | hb | hb <;> exact hoctet _ (by omega) (by omega) hb

/-! ### Decoding one character -/

theorem ofNat_eq {c : Char} {n : Nat} (h : n = c.toNat) : Char.ofNat n = c :=
  h ▸ Char.ofNat_toNat c

theorem not_lt_of_le {n : Nat} (hle : 0x80 ≤ n) (hlt : n < 256) : ¬ n.toUInt8 < 0x80 := by
  intro hn
  rw [UInt8.lt_iff_toNat_lt, toNat_toUInt8 hlt] at hn
  exact absurd hn (Nat.not_lt.mpr hle)

theorem isContinuation_toUInt8 (n : Nat) : isContinuation (0x80 + n % 64).toUInt8 = true := by
  rw [isContinuation_iff, toNat_toUInt8 (by omega)]
  omega

variable {c : Char} (tail : List UInt8)

theorem decodeStart_one (h : c.toNat < 0x80) :
    decodeStart (c.toNat.toUInt8 :: tail) =
      (c :: (decodeStart tail).1, (decodeStart tail).2) := by
  have hascii : c.toNat.toUInt8 < 0x80 := by
    rw [UInt8.lt_iff_toNat_lt, toNat_toUInt8 (by omega)]
    exact h
  rw [decodeStart.eq_def]
  dsimp only
  rw [if_pos hascii, ofNat_eq (toNat_toUInt8 (by omega))]

theorem decodeStart_two (hlow : 0x80 ≤ c.toNat) (hhigh : c.toNat < 0x800) :
    decodeStart ((0xC0 + c.toNat / 64).toUInt8 :: (0x80 + c.toNat % 64).toUInt8 :: tail) =
      (c :: (decodeStart tail).1, (decodeStart tail).2) := by
  have hpair : startsPair (0xC0 + c.toNat / 64).toUInt8 (0x80 + c.toNat % 64).toUInt8 = true := by
    rw [startsPair_iff, toNat_toUInt8 (by omega)]
    exact ⟨by omega, by omega, isContinuation_toUInt8 _⟩
  rw [decodeStart.eq_def]
  dsimp only
  rw [if_neg (not_lt_of_le (by omega) (by omega)), if_pos hpair, pair,
    toNat_toUInt8 (by omega), toNat_toUInt8 (by omega), ofNat_eq (c := c) (by omega)]

/-- No character of three octets is a surrogate, which is what the second octet is looked at for. -/
theorem decodeStart_three (hlow : 0x800 ≤ c.toNat) (hhigh : c.toNat < 0x10000) :
    decodeStart ((0xE0 + c.toNat / 4096).toUInt8 :: (0x80 + c.toNat / 64 % 64).toUInt8 ::
        (0x80 + c.toNat % 64).toUInt8 :: tail) =
      (c :: (decodeStart tail).1, (decodeStart tail).2) := by
  have hvalid := toNat_valid c
  have hpair : ¬ startsPair (0xE0 + c.toNat / 4096).toUInt8
      (0x80 + c.toNat / 64 % 64).toUInt8 = true := by
    rw [startsPair_iff, toNat_toUInt8 (by omega)]
    omega
  have htriple : startsTriple (0xE0 + c.toNat / 4096).toUInt8
      (0x80 + c.toNat / 64 % 64).toUInt8 = true := by
    rw [startsTriple_iff, toNat_toUInt8 (by omega), toNat_toUInt8 (by omega)]
    exact ⟨by omega, by omega, isContinuation_toUInt8 _, by omega, by omega⟩
  rw [decodeStart.eq_def]
  dsimp only
  rw [if_neg (not_lt_of_le (by omega) (by omega)), if_neg hpair, htriple,
    isContinuation_toUInt8, if_pos (by rfl), triple, toNat_toUInt8 (by omega),
    toNat_toUInt8 (by omega), toNat_toUInt8 (by omega), ofNat_eq (c := c) (by omega)]

theorem decodeStart_four (hlow : 0x10000 ≤ c.toNat) :
    decodeStart ((0xF0 + c.toNat / 262144).toUInt8 :: (0x80 + c.toNat / 4096 % 64).toUInt8 ::
        (0x80 + c.toNat / 64 % 64).toUInt8 :: (0x80 + c.toNat % 64).toUInt8 :: tail) =
      (c :: (decodeStart tail).1, (decodeStart tail).2) := by
  have hvalid := toNat_valid c
  have hpair : ¬ startsPair (0xF0 + c.toNat / 262144).toUInt8
      (0x80 + c.toNat / 4096 % 64).toUInt8 = true := by
    rw [startsPair_iff, toNat_toUInt8 (by omega)]
    omega
  have htriple : startsTriple (0xF0 + c.toNat / 262144).toUInt8
      (0x80 + c.toNat / 4096 % 64).toUInt8 = false := by
    rw [Bool.eq_false_iff, ne_eq, startsTriple_iff, toNat_toUInt8 (by omega)]
    omega
  have hquad : startsQuad (0xF0 + c.toNat / 262144).toUInt8
      (0x80 + c.toNat / 4096 % 64).toUInt8 = true := by
    rw [startsQuad_iff, toNat_toUInt8 (by omega), toNat_toUInt8 (by omega)]
    exact ⟨by omega, by omega, isContinuation_toUInt8 _, by omega, by omega⟩
  rw [decodeStart.eq_def]
  dsimp only
  rw [if_neg (not_lt_of_le (by omega) (by omega)), if_neg hpair, htriple, hquad,
    isContinuation_toUInt8, isContinuation_toUInt8, Bool.false_and, if_neg (by decide),
    if_pos (by rfl), quad, toNat_toUInt8 (by omega), toNat_toUInt8 (by omega),
    toNat_toUInt8 (by omega), toNat_toUInt8 (by omega), ofNat_eq (c := c) (by omega)]

variable (c) in
theorem decodeStart_encodeChar :
    decodeStart (encodeChar c ++ tail) = (c :: (decodeStart tail).1, (decodeStart tail).2) := by
  rw [encodeChar]
  split
  · next hone => exact decodeStart_one tail hone
  · next hone =>
      split
      · next htwo => exact decodeStart_two tail (by omega) htwo
      · next htwo =>
          split
          · next hthree => exact decodeStart_three tail (by omega) hthree
          · next hthree => exact decodeStart_four tail (by omega)

theorem decodeStart_encode (cs : List Char) : decodeStart (encode cs) = (cs, []) := by
  induction cs with
  | nil => rfl
  | cons c cs ih => rw [encode_cons, decodeStart_encodeChar, ih]

theorem decode?_encode (cs : List Char) : decode? (encode cs) = some cs := by
  rw [decode?, decodeStart_encode]

end RamlSchema.Utf8
