import RamlSchema.Proofs.Text.Utf8

/-!
# Where characters meet

Octets are the encoding of a text if and only if the decoder gets through them. The first octet of a
character never continues another one, so a whole character that stands in an encoded text has
encoded texts on both sides of it.
-/

namespace RamlSchema.Utf8

/-- The octets of some text. -/
def IsText (octets : List UInt8) : Prop :=
  ∃ cs, octets = encode cs

theorem isText_nil : IsText [] :=
  ⟨[], rfl⟩

theorem isText_encodeChar (c : Char) : IsText (encodeChar c) :=
  ⟨[c], (List.append_nil _).symm⟩

theorem IsText.append {a b : List UInt8} (ha : IsText a) (hb : IsText b) : IsText (a ++ b) := by
  obtain ⟨cs, rfl⟩ := ha
  obtain ⟨ds, rfl⟩ := hb
  exact ⟨cs ++ ds, (encode_append cs ds).symm⟩

theorem toUInt8_eq {n : Nat} {b : UInt8} (h : n = b.toNat) : n.toUInt8 = b := by
  rw [h, Nat.toUInt8, UInt8.ofNat_toNat]

theorem toNat_ofNat {n : Nat} (h : n < 0xD800 ∨ 0xDFFF < n ∧ n < 0x110000) :
    (Char.ofNat n).toNat = n := by
  have hvalid : n.isValidChar := h
  rw [Char.ofNat, dif_pos hvalid]
  rfl

theorem encodeChar_octet {a : UInt8} (h : a.toNat < 0x80) :
    encodeChar (Char.ofNat a.toNat) = [a] := by
  have hcode := toNat_ofNat (n := a.toNat) (by omega)
  rw [encodeChar_ascii (by omega), hcode, toUInt8_eq rfl]

theorem isText_octet {b : UInt8} (hb : b.toNat < 0x80) : IsText [b] :=
  encodeChar_octet hb ▸ isText_encodeChar _

theorem isText_octets {octets : List UInt8} (h : ∀ b ∈ octets, b.toNat < 0x80) :
    IsText octets := by
  induction octets with
  | nil => exact isText_nil
  | cons b octets ih =>
      obtain ⟨hb, h⟩ := List.forall_mem_cons.mp h
      exact (isText_octet hb).append (ih h)

theorem IsText.concat {front : List UInt8} {b : UInt8} (h : IsText front) (hb : b.toNat < 0x80) :
    IsText (front ++ [b]) :=
  h.append (isText_octet hb)

theorem encodeChar_pair {a b : UInt8} (h : startsPair a b = true) :
    encodeChar (pair a b) = [a, b] := by
  rw [startsPair_iff, isContinuation_iff] at h
  have hcode := toNat_ofNat (n := a.toNat % 32 * 64 + b.toNat % 64) (by omega)
  rw [encodeChar, pair, hcode, if_neg (by omega), if_pos (by omega), toUInt8_eq (b := a) (by omega),
    toUInt8_eq (b := b) (by omega)]

/-- Neither an overlong form nor a surrogate, so the code has three octets and is a character. -/
theorem encodeChar_triple {a b c : UInt8} (h : startsTriple a b = true)
    (hc : isContinuation c = true) : encodeChar (triple a b c) = [a, b, c] := by
  rw [startsTriple_iff, isContinuation_iff] at h
  rw [isContinuation_iff] at hc
  have hcode := toNat_ofNat (n := a.toNat % 16 * 4096 + b.toNat % 64 * 64 + c.toNat % 64) (by omega)
  rw [encodeChar, triple, hcode, if_neg (by omega), if_neg (by omega), if_pos (by omega),
    toUInt8_eq (b := a) (by omega), toUInt8_eq (b := b) (by omega), toUInt8_eq (b := c) (by omega)]

theorem encodeChar_quad {a b c d : UInt8} (h : startsQuad a b = true)
    (hc : isContinuation c = true) (hd : isContinuation d = true) :
    encodeChar (quad a b c d) = [a, b, c, d] := by
  rw [startsQuad_iff, isContinuation_iff] at h
  rw [isContinuation_iff] at hc hd
  have hcode := toNat_ofNat
    (n := a.toNat % 8 * 262144 + b.toNat % 64 * 4096 + c.toNat % 64 * 64 + d.toNat % 64) (by omega)
  rw [encodeChar, quad, hcode, if_neg (by omega), if_neg (by omega), if_neg (by omega),
    toUInt8_eq (b := a) (by omega), toUInt8_eq (b := b) (by omega), toUInt8_eq (b := c) (by omega),
    toUInt8_eq (b := d) (by omega)]

theorem encode_cons_append {c : Char} {octets tail : List UInt8} {found : List Char × List UInt8}
    (hc : encodeChar c = octets) (htail : encode found.1 ++ found.2 = tail) :
    encode (c :: found.1) ++ found.2 = octets ++ tail := by
  rw [encode_cons, hc, List.append_assoc, htail]

/-- Nothing is lost by decoding: the characters encoded, and what was left, are the octets. -/
theorem encode_decodeStart (octets : List UInt8) :
    encode (decodeStart octets).1 ++ (decodeStart octets).2 = octets := by
  fun_induction decodeStart octets with
  | case1 => rfl
  | case2 a tail go hone ih =>
      exact encode_cons_append (encodeChar_octet (UInt8.lt_iff_toNat_lt.mp hone)) ih
  | case4 a go _ b tail hpair ih => exact encode_cons_append (encodeChar_pair hpair) ih
  | case6 a go _ b _ c tail htriple ih =>
      rw [Bool.and_eq_true] at htriple
      exact encode_cons_append (encodeChar_triple htriple.1 htriple.2) ih
  | case8 a go _ b _ c _ d tail hquad ih =>
      rw [Bool.and_eq_true, Bool.and_eq_true] at hquad
      exact encode_cons_append (encodeChar_quad hquad.1.1 hquad.1.2 hquad.2) ih
  | case3 | case5 | case7 | case9 => rfl

theorem eq_encode_of_decodeStart {octets : List UInt8} {cs : List Char}
    (h : decodeStart octets = (cs, [])) : octets = encode cs := by
  have hwhole := encode_decodeStart octets
  rw [h, List.append_nil] at hwhole
  exact hwhole.symm

/-! ### Whole characters inside a text -/

theorem exists_encodeChar_eq_cons (c : Char) :
    ∃ first later, encodeChar c = first :: later ∧ isContinuation first = false ∧
      ∀ b ∈ later, isContinuation b = true := by
  have hvalid := toNat_valid c
  have hfirst : ∀ {n}, n < 0x80 ∨ 0xBF < n → n < 256 → isContinuation n.toUInt8 = false := by
    intro n hn hlt
    rw [Bool.eq_false_iff, ne_eq, isContinuation_iff, toNat_toUInt8 hlt]
    omega
  have hlater := isContinuation_toUInt8
  rw [encodeChar]
  split
  · exact ⟨_, _, rfl, hfirst (by omega) (by omega), List.forall_mem_nil _⟩
  · split
    · exact ⟨_, _, rfl, hfirst (by omega) (by omega), List.forall_mem_singleton.mpr (hlater _)⟩
    · split
      · refine ⟨_, _, rfl, hfirst (by omega) (by omega), ?_⟩
        exact List.forall_mem_cons.mpr ⟨hlater _, List.forall_mem_singleton.mpr (hlater _)⟩
      · refine ⟨_, _, rfl, hfirst (by omega) (by omega), ?_⟩
        exact List.forall_mem_cons.mpr ⟨hlater _, List.forall_mem_cons.mpr
          ⟨hlater _, List.forall_mem_singleton.mpr (hlater _)⟩⟩

theorem encodeChar_append_inj {c d : Char} {a b : List UInt8}
    (h : encodeChar c ++ a = encodeChar d ++ b) : c = d ∧ a = b := by
  have hdecoded := congrArg (fun octets => (decodeStart octets).1) h
  simp only [decodeStart_encodeChar] at hdecoded
  obtain rfl := (List.cons.inj hdecoded).1
  exact ⟨rfl, List.append_cancel_left h⟩

/-- Where two characters begin is the same place, or lies outside of the other one. -/
theorem eq_nil_of_encodeChar_eq {c d : Char} {front middle a b : List UInt8}
    (hd : encodeChar d = front ++ middle) (h : encodeChar c ++ a = middle ++ b) :
    front = [] ∨ middle = [] := by
  obtain ⟨first, later, hfirst, hstarts, _⟩ := exists_encodeChar_eq_cons c
  obtain ⟨_, laterD, hlast, _, hcontinues⟩ := exists_encodeChar_eq_cons d
  rw [hlast] at hd
  cases front with
  | nil => exact .inl rfl
  | cons _ front =>
      cases middle with
      | nil => exact .inr rfl
      | cons _ middle =>
          rw [hfirst] at h
          obtain ⟨rfl, _⟩ := List.cons.inj h
          obtain ⟨_, rfl⟩ := List.cons.inj hd
          have hcontinue := hcontinues first (by simp)
          rw [hstarts] at hcontinue
          exact absurd hcontinue Bool.false_ne_true

/-- The octets on both sides of a whole character are texts of their own. -/
theorem isText_of_append_encodeChar {c : Char} {front back : List UInt8}
    (h : IsText (front ++ (encodeChar c ++ back))) : IsText front ∧ IsText back := by
  obtain ⟨cs, h⟩ := h
  induction cs generalizing front with
  | nil =>
      obtain ⟨first, later, hc, _, _⟩ := exists_encodeChar_eq_cons c
      rw [hc] at h
      exact absurd h (by simp [encode])
  | cons d cs ih =>
      rw [encode_cons] at h
      rcases List.append_eq_append_iff.mp h with ⟨middle, hd, hrest⟩ | ⟨middle, hfront, hrest⟩
      · rcases eq_nil_of_encodeChar_eq hd hrest with rfl | rfl
        · exact ⟨isText_nil, cs, (encodeChar_append_inj h).2⟩
        · have hbehind : [] ++ (encodeChar c ++ back) = encode cs := hrest
          obtain ⟨_, hback⟩ := ih hbehind
          rw [List.append_nil] at hd
          exact ⟨hd ▸ isText_encodeChar d, hback⟩
      · obtain ⟨hmiddle, hback⟩ := ih hrest.symm
        rw [hfront]
        exact ⟨(isText_encodeChar d).append hmiddle, hback⟩

end RamlSchema.Utf8
