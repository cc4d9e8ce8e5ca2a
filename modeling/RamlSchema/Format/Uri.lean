import RamlSchema.Text.Ascii
import RamlSchema.Text.Split

/-!
# URIs and URI references

Recognisers for the rules `URI` and `URI-reference` of RFC 3986. A text is taken apart from the
outside: fragment, query, scheme, authority and path, each of which allows its own characters.
Everything is ASCII, and a percent sign stands only before two hexadecimal digits.
-/

namespace RamlSchema.Uri

open Ascii

/-- Characters with no meaning of their own. -/
def isUnreserved (c : Char) : Bool :=
  isLetter c || isDigit c || c == '-' || c == '.' || c == '_' || c == '~'

/-- Delimiters that a part of a URI may use in its own way. -/
def isSubDelimiter (c : Char) : Bool :=
  "!$&'()*+,;=".toList.contains c

/-- The characters of a path segment, percent signs apart. -/
def isSegmentChar (c : Char) : Bool :=
  isUnreserved c || isSubDelimiter c || c == ':' || c == '@'

/-- The characters of a path, percent signs apart. -/
def isPathChar (c : Char) : Bool :=
  isSegmentChar c || c == '/'

def isQueryChar (c : Char) : Bool :=
  isPathChar c || c == '?'

/-- The characters of a user and of an address of a version to come. -/
def isUserChar (c : Char) : Bool :=
  isUnreserved c || isSubDelimiter c || c == ':'

def isNameChar (c : Char) : Bool :=
  isUnreserved c || isSubDelimiter c

/-- A text of allowed characters and percent encodings. -/
def consistsOf (allowed : Char → Bool) : List Char → Bool
  | [] => true
  | '%' :: a :: b :: rest => isHexDigit a && isHexDigit b && consistsOf allowed rest
  | c :: rest => allowed c && consistsOf allowed rest

/-- A letter, then letters, digits, `+`, `-` and `.`. -/
def isScheme : List Char → Bool
  | [] => false
  | c :: rest =>
    isLetter c && rest.all fun d => isLetter d || isDigit d || d == '+' || d == '-' || d == '.'

/-- A number from 0 to 255 without needless zeros. -/
def isDecimalOctet (cs : List Char) : Bool :=
  cs.all isDigit && 0 < cs.length && cs.length ≤ 3 && (cs.length == 1 || cs.head? != some '0') &&
    cs.foldl (fun n c => n * 10 + (c.toNat - '0'.toNat)) 0 ≤ 255

def isIpv4 (cs : List Char) : Bool :=
  let parts := cs.splitOn '.'
  parts.length == 4 && parts.all isDecimalOctet

/-- A group of sixteen bits of an IPv6 address. -/
def isGroup (cs : List Char) : Bool :=
  0 < cs.length && cs.length ≤ 4 && cs.all isHexDigit

/-- How many groups some parts are; an IPv4 address at the end is two. -/
def countGroups? : List (List Char) → Option Nat
  | [] => some 0
  | [last] => if isGroup last then some 1 else if isIpv4 last then some 2 else none
  | part :: rest => if isGroup part then (countGroups? rest).map (· + 1) else none

/-- The text before and behind the first pair of colons. -/
def splitElision? : List Char → Option (List Char × List Char)
  | ':' :: ':' :: rest => some ([], rest)
  | [] => none
  | c :: rest => (splitElision? rest).map fun (a, b) => (c :: a, b)

/-- The groups of a text that may be empty. -/
def countSide? (cs : List Char) : Option Nat :=
  if cs.isEmpty then some 0 else countGroups? (cs.splitOn ':')

/-- An IPv6 address: eight groups, or fewer with one pair of colons for those left out. Before the
pair there is no IPv4 address. -/
def isIpv6 (cs : List Char) : Bool :=
  match splitElision? cs with
  | none => countGroups? (cs.splitOn ':') == some 8
  | some (before, behind) =>
    match countSide? before, countSide? behind with
    | some m, some n => m + n ≤ 7 && (before.isEmpty || (before.splitOn ':').all isGroup)
    | _, _ => false

/-- An address of a version to come. -/
def isFutureAddress : List Char → Bool
  | [] => false
  | v :: rest =>
    (v == 'v' || v == 'V') &&
      match cutAt '.' rest with
      | (_, none) => false
      | (version, some address) =>
        !version.isEmpty && version.all isHexDigit && !address.isEmpty && address.all isUserChar

/-- Nothing, or a colon and any number of digits. -/
def isPort : List Char → Bool
  | [] => true
  | c :: rest => c == ':' && rest.all isDigit

/-- A host and a port: an address in brackets or a name. -/
def isHostAndPort : List Char → Bool
  | '[' :: rest =>
    match cutAt ']' rest with
    | (_, none) => false
    | (address, some port) => (isIpv6 address || isFutureAddress address) && isPort port
  | cs =>
    consistsOf isNameChar (cs.takeWhile (· != ':')) && isPort (cs.dropWhile (· != ':'))

/-- An authority: what stands before `@`, if anything does, is the user. -/
def isAuthority (cs : List Char) : Bool :=
  match cutAt '@' cs with
  | (host, none) => isHostAndPort host
  | (user, some host) => consistsOf isUserChar user && isHostAndPort host

/-- An authority behind two slashes and a path, or a path alone. -/
def isHierarchy : List Char → Bool
  | '/' :: '/' :: rest =>
    isAuthority (rest.takeWhile (· != '/')) && consistsOf isPathChar (rest.dropWhile (· != '/'))
  | cs => consistsOf isPathChar cs

/-- The part before query and fragment: with a scheme, or, where that is allowed, without one.
Without one the first segment has no colon, because what stands before it would be read as a scheme.
-/
def isStem (relative : Bool) (cs : List Char) : Bool :=
  match cutAt ':' (cs.takeWhile (· != '/')) with
  | (scheme, some _) => isScheme scheme && isHierarchy (cs.drop (scheme.length + 1))
  | (_, none) => relative && isHierarchy cs

/-- Absent, or of the characters of a query. -/
def isTail : Option (List Char) → Bool
  | none => true
  | some cs => consistsOf isQueryChar cs

/-- A URI, or with `relative` a URI reference. -/
def recognise (relative : Bool) (cs : List Char) : Bool :=
  let (front, fragment) := cutAt '#' cs
  let (stem, query) := cutAt '?' front
  isTail fragment && isTail query && isStem relative stem

/-- The rule `URI`. -/
def isUri (s : String) : Bool :=
  recognise false s.toList

/-- The rule `URI-reference`. -/
def isReference (s : String) : Bool :=
  recognise true s.toList

end RamlSchema.Uri
