import RamlSchema.Json.Basic
import RamlSchema.Json.NumberToken
import RamlSchema.Json.StringToken

/-!
# Reading JSON text

A reader for arrays and objects is built over the reader for the values inside them, so the nesting
that a text may have is the number of times this was done: it falls by one at every bracket, and at
zero a bracket is a fault. Inside one pair of brackets every round takes at least one octet, so as
many rounds as there are octets are enough.
-/

namespace RamlSchema.Json

/-- The four octets that may stand between tokens. -/
def isSpace (b : UInt8) : Bool :=
  b = 0x20 || b = 0x0A || b = 0x09 || b = 0x0D

def skipSpace (text : List UInt8) : List UInt8 :=
  text.dropWhile isSpace

/-- Reads the rest of a word whose first letter has been taken. -/
def readWord (value : Json) : List UInt8 → List UInt8 → Read Json
  | [], text => .ok (value, text)
  | _ :: _, [] => .error (.behind .endOfValue [])
  | w :: word, b :: rest =>
    if b = w then readWord value word rest else .error (.behind .expectedWord rest)

/-- Reads what follows an item: the closing bracket, or a comma and further items. -/
def readLaterItems (item : List UInt8 → Read Json) : Nat → List UInt8 → Read (List Json)
  | 0, text => .error (.upon .endOfList text)
  | fuel + 1, text =>
    match skipSpace text with
    | [] => .error (.upon .endOfList [])
    | b :: rest =>
      if b = 0x5D then .ok ([], rest)
      else if b = 0x2C then
        match skipSpace rest with
        | [] => .error (.upon .endOfValue [])
        | c :: more =>
          if c = 0x5D then .error (.upon .trailingComma (c :: more))
          else (item (c :: more)).andThen fun v rest =>
            (readLaterItems item fuel rest).map (v :: ·)
      else .error (.upon .expectedListEnd (b :: rest))

/-- Reads the items of an array whose opening bracket has been taken. -/
def readItems (item : List UInt8 → Read Json) (text : List UInt8) : Read (List Json) :=
  match skipSpace text with
  | [] => .error (.upon .endOfList [])
  | b :: rest =>
    if b = 0x5D then .ok ([], rest)
    else (item (b :: rest)).andThen fun v rest =>
      (readLaterItems item text.length rest).map (v :: ·)

def readMember (item : List UInt8 → Read Json) : List UInt8 → Read (String × Json)
  | [] => .error (.upon .endOfValue [])
  | b :: rest =>
    if b = 0x22 then
      (readString rest).andThen fun name rest =>
        match skipSpace rest with
        | [] => .error (.upon .endOfObject [])
        | c :: more =>
          if c = 0x3A then (item more).map (name, ·)
          else .error (.upon .expectedColon (c :: more))
    else .error (.upon .nameNotString (b :: rest))

/-- Reads what follows a member: the closing brace, or a comma and further members. -/
def readLaterMembers (item : List UInt8 → Read Json) :
    Nat → List UInt8 → Read (List (String × Json))
  | 0, text => .error (.upon .endOfObject text)
  | fuel + 1, text =>
    match skipSpace text with
    | [] => .error (.upon .endOfObject [])
    | b :: rest =>
      if b = 0x7D then .ok ([], rest)
      else if b = 0x2C then
        match skipSpace rest with
        | [] => .error (.upon .endOfValue [])
        | c :: more =>
          if c = 0x7D then .error (.upon .trailingComma (c :: more))
          else (readMember item (c :: more)).andThen fun m rest =>
            (readLaterMembers item fuel rest).map (m :: ·)
      else .error (.upon .expectedObjectEnd (b :: rest))

/-- Reads the members of an object whose opening brace has been taken. -/
def readMembers (item : List UInt8 → Read Json) (text : List UInt8) :
    Read (List (String × Json)) :=
  match skipSpace text with
  | [] => .error (.upon .endOfObject [])
  | b :: rest =>
    if b = 0x7D then .ok ([], rest)
    else (readMember item (b :: rest)).andThen fun m rest =>
      (readLaterMembers item text.length rest).map (m :: ·)

def readScalar (b : UInt8) (rest : List UInt8) : Read Json :=
  if b = 0x6E then readWord null [0x75, 0x6C, 0x6C] rest
  else if b = 0x74 then readWord (boolean true) [0x72, 0x75, 0x65] rest
  else if b = 0x66 then readWord (boolean false) [0x61, 0x6C, 0x73, 0x65] rest
  else if b = 0x22 then (readString rest).map string
  else if b = 0x2D then (readNumber true rest).map number
  else if isDigit b then (readNumber false (b :: rest)).map number
  else .error (.upon .expectedValue (b :: rest))

/-- Reads a value in which arrays and objects are nested at most so many levels deep. -/
def readValue : Nat → List UInt8 → Read Json
  | 0, text =>
    match skipSpace text with
    | [] => .error (.upon .endOfValue [])
    | b :: rest =>
      if b = 0x5B || b = 0x7B then .error (.upon .tooDeep (b :: rest)) else readScalar b rest
  | levels + 1, text =>
    match skipSpace text with
    | [] => .error (.upon .endOfValue [])
    | b :: rest =>
      if b = 0x5B then (readItems (readValue levels) rest).map array
      else if b = 0x7B then
        (readMembers (readValue levels) rest).map fun pairs => object (Members.ofPairs pairs)
      else readScalar b rest

/-- How many levels of arrays and objects a text may have. -/
def nestingLimit : Nat :=
  127

/-- Reads a value with nothing but blanks around it. -/
def readWhole (text : List UInt8) : Except Fault Json :=
  match readValue nestingLimit text with
  | .error fault => .error fault
  | .ok (v, rest) =>
    match skipSpace rest with
    | [] => .ok v
    | b :: more => .error (.upon .trailingCharacters (b :: more))

def ofOctets (text : List UInt8) : Except ReadError Json :=
  match readWhole text with
  | .ok v => .ok v
  | .error fault => .error (ReadError.locate text fault)

def ofText (text : String) : Except ReadError Json :=
  ofOctets text.octets

end RamlSchema.Json
