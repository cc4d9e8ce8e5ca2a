/-!
# Letters and digits of ASCII

The classes of characters that the grammars of patterns and of URIs are written in. Nothing outside
ASCII belongs to any of them.
-/

namespace RamlSchema.Ascii

def isDigit (c : Char) : Bool :=
  '0' ≤ c && c ≤ '9'

def isLetter (c : Char) : Bool :=
  ('a' ≤ c && c ≤ 'z') || ('A' ≤ c && c ≤ 'Z')

def hexValue? (c : Char) : Option Nat :=
  if isDigit c then some (c.toNat - 0x30)
  else if 'a' ≤ c && c ≤ 'f' then some (c.toNat - 0x61 + 10)
  else if 'A' ≤ c && c ≤ 'F' then some (c.toNat - 0x41 + 10)
  else none

def isHexDigit (c : Char) : Bool :=
  (hexValue? c).isSome

end RamlSchema.Ascii
