import RamlSchema.Json.Fault
import RamlSchema.Text.Utf8

/-!
# Reading a string

The octets behind an opening quotation mark are taken one by one by a machine with five states.
Escapes are replaced by the UTF-8 octets of what they stand for, and only at the closing mark is the
result looked at as text: octets that are not UTF-8 are reported there, as many octets before the
mark as are left undecoded.
-/

namespace RamlSchema.Json

/-- Where in a string the reader is: between characters, behind a backslash, among the digits of a
hexadecimal escape, or on the way from a high surrogate to the low one that must follow. The octets
in `seen` are the digits so far, last one first. -/
inductive StringState
  | plain
  | escape
  | hex (high : Option Nat) (seen : List UInt8)
  | pairBackslash (high : Nat)
  | pairLetter (high : Nat)
  deriving DecidableEq, Repr

def hexValue? (b : UInt8) : Option Nat :=
  if 0x30 ≤ b && b ≤ 0x39 then some (b.toNat - 0x30)
  else if 0x41 ≤ b && b ≤ 0x46 then some (b.toNat - 0x41 + 10)
  else if 0x61 ≤ b && b ≤ 0x66 then some (b.toNat - 0x61 + 10)
  else none

/-- The number that hexadecimal digits denote, first digit first. -/
def hexNumber? (digits : List UInt8) : Option Nat :=
  digits.foldl (fun acc b => do return (← acc) * 16 + (← hexValue? b)) (some 0)

/-- The octet that a letter behind a backslash stands for. -/
def simpleEscape? (b : UInt8) : Option UInt8 :=
  if b = 0x22 || b = 0x5C || b = 0x2F then some b
  else if b = 0x62 then some 8
  else if b = 0x66 then some 12
  else if b = 0x6E then some 10
  else if b = 0x72 then some 13
  else if b = 0x74 then some 9
  else none

/-- What four digits do: they give octets to append and the next state, or a cause of failure. A
high surrogate waits for a low one, and nothing else may have one before it. -/
def completeHex (high : Option Nat) (digits : List UInt8) :
    Except FaultCause (List UInt8 × StringState) :=
  match hexNumber? digits with
  | none => .error .invalidEscape
  | some n =>
    let low := 0xDC00 ≤ n && n ≤ 0xDFFF
    match high with
    | none =>
      if low then .error .unpairedSurrogate
      else if 0xD800 ≤ n && n ≤ 0xDBFF then .ok ([], .pairBackslash n)
      else .ok (Utf8.encodeChar (Char.ofNat n), .plain)
    | some h =>
      if low then
        .ok (Utf8.encodeChar (Char.ofNat (0x10000 + (h - 0xD800) * 1024 + (n - 0xDC00))), .plain)
      else .error .unpairedSurrogate

/-- The octets inside a string, last one first in `done`, become its text. -/
def closeString (done rest : List UInt8) : Read String :=
  match Utf8.decodeStart done.reverse with
  | (cs, []) => .ok (String.ofList cs, rest)
  | (_, broken) => .error ⟨.notUtf8, rest.length + broken.length⟩

/-- Reads on from a state, with the octets so far, last one first, in `done`. -/
def readStringFrom : StringState → List UInt8 → List UInt8 → Read String
  | _, _, [] => .error (.behind .endOfString [])
  | .plain, done, b :: rest =>
    if b = 0x22 then closeString done rest
    else if b = 0x5C then readStringFrom .escape done rest
    else if b < 0x20 then .error (.behind .controlCharacter rest)
    else readStringFrom .plain (b :: done) rest
  | .escape, done, b :: rest =>
    if b = 0x75 then readStringFrom (.hex none []) done rest
    else match simpleEscape? b with
      | some octet => readStringFrom .plain (octet :: done) rest
      | none => .error (.behind .invalidEscape rest)
  | .hex high seen, done, b :: rest =>
    if seen.length < 3 then readStringFrom (.hex high (b :: seen)) done rest
    else match completeHex high (b :: seen).reverse with
      | .ok (octets, next) => readStringFrom next (octets.reverse ++ done) rest
      | .error cause => .error (.behind cause rest)
  | .pairBackslash high, done, b :: rest =>
    if b = 0x5C then readStringFrom (.pairLetter high) done rest
    else .error (.behind .unfinishedPair rest)
  | .pairLetter high, done, b :: rest =>
    if b = 0x75 then readStringFrom (.hex (some high) []) done rest
    else .error (.behind .unfinishedPair rest)

/-- Reads a string whose opening quotation mark has been taken. -/
def readString (text : List UInt8) : Read String :=
  readStringFrom .plain [] text

end RamlSchema.Json
