import RamlSchema.Json.StringToken
import RamlSchema.Json.Writer
import RamlSchema.Proofs.Text.Utf8

/-!
# Strings read back

What is written of a character inside a string is read as the octets of this character, whether it
is escaped or stands for itself, and what is read up to the closing mark is decoded to the text.
-/

namespace RamlSchema.Json

open Utf8

theorem readStringFrom_plain {b : UInt8} (hlow : 0x20 ≤ b.toNat) (hmark : b ≠ 0x22)
    (hbackslash : b ≠ 0x5C) (done rest : List UInt8) :
    readStringFrom .plain done (b :: rest) = readStringFrom .plain (b :: done) rest := by
  have hcontrol : ¬ b < 0x20 := by
    rw [UInt8.lt_iff_toNat_lt]
    exact Nat.not_lt.mpr hlow
  rw [readStringFrom, if_neg hmark, if_neg hbackslash, if_neg hcontrol]

theorem readStringFrom_plains {octets : List UInt8}
    (h : ∀ b ∈ octets, 0x20 ≤ b.toNat ∧ b ≠ 0x22 ∧ b ≠ 0x5C) (done rest : List UInt8) :
    readStringFrom .plain done (octets ++ rest) =
      readStringFrom .plain (octets.reverse ++ done) rest := by
  induction octets generalizing done with
  | nil => rfl
  | cons b octets ih =>
      obtain ⟨⟨hlow, hmark, hbackslash⟩, h⟩ := List.forall_mem_cons.mp h
      rw [List.cons_append, readStringFrom_plain hlow hmark hbackslash, ih h, List.reverse_cons,
        List.append_assoc, List.singleton_append]

/-- The octets of a character that is not escaped mean nothing else inside a string. -/
theorem readStringFrom_encodeChar {c : Char} (hlow : 0x20 ≤ c.toNat) (hmark : c ≠ '"')
    (hbackslash : c ≠ '\\') (done rest : List UInt8) :
    readStringFrom .plain done (encodeChar c ++ rest) =
      readStringFrom .plain ((encodeChar c).reverse ++ done) rest := by
  refine readStringFrom_plains (fun b hb => ?_) done rest
  by_cases hascii : c.toNat < 0x80
  · rw [encodeChar_ascii hascii, List.mem_singleton] at hb
    have hoctet : b.toNat = c.toNat := by rw [hb, toNat_toUInt8 (by omega)]
    refine ⟨by omega, fun h => hmark ?_, fun h => hbackslash ?_⟩
    · rw [h] at hoctet
      exact Char.toNat_inj.mp hoctet.symm
    · rw [h] at hoctet
      exact Char.toNat_inj.mp hoctet.symm
  · have hbeyond := le_of_mem_encodeChar (Nat.not_lt.mp hascii) hb
    refine ⟨by omega, fun h => ?_, fun h => ?_⟩
    · rw [h] at hbeyond
      exact absurd hbeyond (by decide)
    · rw [h] at hbeyond
      exact absurd hbeyond (by decide)

theorem readStringFrom_simpleEscape {b octet : UInt8} (hu : b ≠ 0x75)
    (h : simpleEscape? b = some octet) (done rest : List UInt8) :
    readStringFrom .plain done (0x5C :: b :: rest) =
      readStringFrom .plain (octet :: done) rest := by
  rw [readStringFrom, if_neg (by decide), if_pos rfl, readStringFrom, if_neg hu, h]

theorem readStringFrom_hexEscape {a b c d : UInt8} {octets : List UInt8}
    (h : completeHex none [a, b, c, d] = .ok (octets, .plain)) (done rest : List UInt8) :
    readStringFrom .plain done (0x5C :: 0x75 :: a :: b :: c :: d :: rest) =
      readStringFrom .plain (octets.reverse ++ done) rest := by
  have hhex : readStringFrom .plain done (0x5C :: 0x75 :: a :: b :: c :: d :: rest) =
      readStringFrom (.hex none [c, b, a]) done (d :: rest) := rfl
  have hdigits : completeHex none [d, c, b, a].reverse = .ok (octets, .plain) := h
  have hlast : ¬ [c, b, a].length < 3 := Nat.lt_irrefl 3
  rw [hhex, readStringFrom, if_neg hlast, hdigits]

theorem completeHex_of_lt {n : Nat} {digits : List UInt8} (h : hexNumber? digits = some n)
    (hn : n < 0xD800) : completeHex none digits = .ok (encodeChar (Char.ofNat n), .plain) := by
  have hlow : (decide (0xDC00 ≤ n) && decide (n ≤ 0xDFFF)) = false := by
    rw [Bool.and_eq_false_iff, decide_eq_false_iff_not]
    omega
  have hhigh : (decide (0xD800 ≤ n) && decide (n ≤ 0xDBFF)) = false := by
    rw [Bool.and_eq_false_iff, decide_eq_false_iff_not]
    omega
  rw [completeHex, h]
  dsimp only
  rw [hlow, hhigh, if_neg (by decide), if_neg (by decide)]

theorem readStringFrom_control {n : Nat} (hn : n < 0x20) (done rest : List UInt8) :
    readStringFrom .plain done
        (encode ['\\', 'u', '0', '0', hexDigit (n / 16), hexDigit (n % 16)] ++ rest) =
      readStringFrom .plain ((encodeChar (Char.ofNat n)).reverse ++ done) rest := by
  have hascii : ∀ m < 16, encodeChar (hexDigit m) = [(hexDigit m).toNat.toUInt8] := by decide
  have hnumber : ∀ n < 0x20,
      hexNumber? [0x30, 0x30, (hexDigit (n / 16)).toNat.toUInt8,
        (hexDigit (n % 16)).toNat.toUInt8] = some n := by decide
  have hoctets : encode ['\\', 'u', '0', '0', hexDigit (n / 16), hexDigit (n % 16)] =
      [0x5C, 0x75, 0x30, 0x30, (hexDigit (n / 16)).toNat.toUInt8,
        (hexDigit (n % 16)).toNat.toUInt8] := by
    rw [encode_cons, encode_cons, encode_cons, encode_cons, encode_cons, encode_cons,
      hascii _ (by omega), hascii _ (by omega)]
    rfl
  rw [hoctets]
  exact readStringFrom_hexEscape (completeHex_of_lt (hnumber n hn) (by omega)) done rest

/-- What is written of a character is read as its octets. -/
theorem readStringFrom_escapeChar (c : Char) (done rest : List UInt8) :
    readStringFrom .plain done (encode (escapeChar c) ++ rest) =
      readStringFrom .plain ((encodeChar c).reverse ++ done) rest := by
  have hletter : ∀ (letter : Char) (b octet : UInt8), encodeChar letter = [b] →
      encodeChar c = [octet] → b ≠ 0x75 → simpleEscape? b = some octet →
      readStringFrom .plain done (encode ['\\', letter] ++ rest) =
        readStringFrom .plain ((encodeChar c).reverse ++ done) rest := by
    intro letter b octet hb hc hu hescape
    rw [encode_cons, encode_cons, hb, hc]
    exact readStringFrom_simpleEscape hu hescape done rest
  unfold escapeChar
  repeat' split
  · next h => exact hletter '"' 0x22 0x22 rfl (h ▸ rfl) (by decide) rfl
  · next h => exact hletter '\\' 0x5C 0x5C rfl (h ▸ rfl) (by decide) rfl
  · next h => exact hletter 'b' 0x62 8 rfl (h ▸ rfl) (by decide) rfl
  · next h => exact hletter 'f' 0x66 12 rfl (h ▸ rfl) (by decide) rfl
  · next h => exact hletter 'n' 0x6E 10 rfl (h ▸ rfl) (by decide) rfl
  · next h => exact hletter 'r' 0x72 13 rfl (h ▸ rfl) (by decide) rfl
  · next h => exact hletter 't' 0x74 9 rfl (h ▸ rfl) (by decide) rfl
  · next hcontrol =>
      rw [readStringFrom_control hcontrol, Char.ofNat_toNat]
  · next hmark hbackslash _ _ _ _ _ hcontrol =>
      rw [encode_cons, List.append_assoc]
      exact readStringFrom_encodeChar (Nat.not_lt.mp hcontrol) hmark hbackslash done rest

theorem readStringFrom_escapeChars (cs : List Char) (done rest : List UInt8) :
    readStringFrom .plain done (encode (cs.flatMap escapeChar) ++ rest) =
      readStringFrom .plain ((encode cs).reverse ++ done) rest := by
  induction cs generalizing done with
  | nil => rfl
  | cons c cs ih =>
      rw [List.flatMap_cons, encode_append, List.append_assoc, readStringFrom_escapeChar, ih,
        encode_cons, List.reverse_append, List.append_assoc]

theorem encode_quote_append (s : String) (rest : List UInt8) :
    encode (quote s) ++ rest = 0x22 :: (encode (s.toList.flatMap escapeChar) ++ 0x22 :: rest) := by
  rw [quote, quoteChars, encode_cons, encode_append, List.append_assoc, List.append_assoc]
  rfl

/-- **A string is read back from what is written of it.** -/
theorem readString_escapeChars (s : String) (rest : List UInt8) :
    readString (encode (s.toList.flatMap escapeChar) ++ 0x22 :: rest) = .ok (s, rest) := by
  have hclose : readStringFrom .plain (encode s.toList).reverse (0x22 :: rest) =
      closeString (encode s.toList).reverse rest := rfl
  rw [readString, readStringFrom_escapeChars, List.append_nil, hclose, closeString,
    List.reverse_reverse, decodeStart_encode]
  show Except.ok (String.ofList s.toList, rest) = _
  rw [String.ofList_toList]

end RamlSchema.Json
