/-!
# UTF-8

Characters as octets and octets as characters. Decoding stops at the first octet that begins no
well-formed sequence, so a caller learns both the text in front of it and how many octets are left;
the lenient decoder puts U+FFFD there and goes on.
-/

namespace RamlSchema.Utf8

def encodeChar (c : Char) : List UInt8 :=
  let n := c.toNat
  if n < 0x80 then [n.toUInt8]
  else if n < 0x800 then [(0xC0 + n / 64).toUInt8, (0x80 + n % 64).toUInt8]
  else if n < 0x10000 then
    [(0xE0 + n / 4096).toUInt8, (0x80 + n / 64 % 64).toUInt8, (0x80 + n % 64).toUInt8]
  else
    [(0xF0 + n / 262144).toUInt8, (0x80 + n / 4096 % 64).toUInt8, (0x80 + n / 64 % 64).toUInt8,
      (0x80 + n % 64).toUInt8]

def encode (cs : List Char) : List UInt8 :=
  cs.flatMap encodeChar

/-- An octet that may stand third or fourth in a sequence. -/
def isContinuation (b : UInt8) : Bool :=
  0x80 ≤ b && b ≤ 0xBF

def startsPair (a b : UInt8) : Bool :=
  0xC2 ≤ a && a ≤ 0xDF && isContinuation b

/-- The first two octets of a sequence of three: no overlong forms, no surrogates. -/
def startsTriple (a b : UInt8) : Bool :=
  0xE0 ≤ a && a ≤ 0xEF && isContinuation b && !(a == 0xE0 && b < 0xA0) && !(a == 0xED && 0xA0 ≤ b)

/-- The first two octets of a sequence of four: no overlong forms, nothing above U+10FFFF. -/
def startsQuad (a b : UInt8) : Bool :=
  0xF0 ≤ a && a ≤ 0xF4 && isContinuation b && !(a == 0xF0 && b < 0x90) && !(a == 0xF4 && 0x90 ≤ b)

def pair (a b : UInt8) : Char :=
  Char.ofNat (a.toNat % 32 * 64 + b.toNat % 64)

def triple (a b c : UInt8) : Char :=
  Char.ofNat (a.toNat % 16 * 4096 + b.toNat % 64 * 64 + c.toNat % 64)

def quad (a b c d : UInt8) : Char :=
  Char.ofNat (a.toNat % 8 * 262144 + b.toNat % 64 * 4096 + c.toNat % 64 * 64 + d.toNat % 64)

/-- The characters up to the first malformed sequence, and the octets from there on. -/
def decodeStart : List UInt8 → List Char × List UInt8
  | [] => ([], [])
  | a :: tail =>
    let stop := ([], a :: tail)
    let go (c : Char) (r : List Char × List UInt8) := (c :: r.1, r.2)
    if a < 0x80 then go (Char.ofNat a.toNat) (decodeStart tail)
    else match tail with
      | [] => stop
      | b :: tail =>
        if startsPair a b then go (pair a b) (decodeStart tail)
        else match tail with
          | [] => stop
          | c :: tail =>
            if startsTriple a b && isContinuation c then go (triple a b c) (decodeStart tail)
            else match tail with
              | [] => stop
              | d :: tail =>
                if startsQuad a b && isContinuation c && isContinuation d then
                  go (quad a b c d) (decodeStart tail)
                else stop

/-- The text of octets that are well-formed throughout. -/
def decode? (bytes : List UInt8) : Option (List Char) :=
  match decodeStart bytes with
  | (cs, []) => some cs
  | (_, _ :: _) => none

/-- The character that stands for what cannot be decoded. -/
def replacement : Char :=
  '\uFFFD'

/-- Decodes all octets. Where a sequence breaks off, what was well-formed of it so far, or else its
first octet, becomes one replacement character. -/
def decodeLenient : List UInt8 → List Char
  | [] => []
  | a :: tail =>
    if a < 0x80 then Char.ofNat a.toNat :: decodeLenient tail
    else match tail with
      | [] => [replacement]
      | b :: after =>
        if startsPair a b then pair a b :: decodeLenient after
        else if startsTriple a b then
          match after with
          | [] => [replacement]
          | c :: rest =>
            if isContinuation c then triple a b c :: decodeLenient rest
            else replacement :: decodeLenient (c :: rest)
        else if startsQuad a b then
          match after with
          | [] => [replacement]
          | c :: rest =>
            if isContinuation c then
              match rest with
              | [] => [replacement]
              | d :: last =>
                if isContinuation d then quad a b c d :: decodeLenient last
                else replacement :: decodeLenient (d :: last)
            else replacement :: decodeLenient (c :: rest)
        else replacement :: decodeLenient (b :: after)

end RamlSchema.Utf8

namespace String

def octets (s : String) : List UInt8 :=
  RamlSchema.Utf8.encode s.toList

end String
