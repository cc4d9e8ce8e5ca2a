import RamlSchema.Json.Basic

/-!
# Writing JSON text

Two layouts of one value: compact, with no blank at all, and pretty, with one member or item a line
and two spaces a level. In strings only the quotation mark, the backslash and the characters below
U+0020 are escaped.
-/

namespace RamlSchema.Json

/-- The lower-case hexadecimal digit of a number below sixteen. -/
def hexDigit (n : Nat) : Char :=
  Nat.digitChar n

def escapeChar (c : Char) : List Char :=
  if c = '"' then ['\\', '"']
  else if c = '\\' then ['\\', '\\']
  else if c = '\x08' then ['\\', 'b']
  else if c = '\x0c' then ['\\', 'f']
  else if c = '\n' then ['\\', 'n']
  else if c = '\r' then ['\\', 'r']
  else if c = '\t' then ['\\', 't']
  else if c.toNat < 0x20 then
    ['\\', 'u', '0', '0', hexDigit (c.toNat / 16), hexDigit (c.toNat % 16)]
  else [c]

def quoteChars (cs : List Char) : List Char :=
  '"' :: (cs.flatMap escapeChar ++ ['"'])

def quote (s : String) : List Char :=
  quoteChars s.toList

/-- The text of `true` or `false`. -/
def booleanText (b : Bool) : List Char :=
  if b then ['t', 'r', 'u', 'e'] else ['f', 'a', 'l', 's', 'e']

/-- The text of `null`. -/
def nullText : List Char :=
  ['n', 'u', 'l', 'l']

mutual

def compactChars : Json → List Char
  | null => nullText
  | boolean b => booleanText b
  | number n => n.text
  | string s => quote s
  | array items => '[' :: compactItems items
  | object ms => '{' :: compactMembers ms
termination_by structural v => v

def compactItems : List Json → List Char
  | [] => [']']
  | v :: rest => compactChars v ++ compactLaterItems rest
termination_by structural vs => vs

/-- Later items, each behind a comma, and the bracket behind them. -/
def compactLaterItems : List Json → List Char
  | [] => [']']
  | v :: rest => ',' :: (compactChars v ++ compactLaterItems rest)
termination_by structural vs => vs

def compactMembers : List (String × Json) → List Char
  | [] => ['}']
  | (k, v) :: rest => quote k ++ ':' :: (compactChars v ++ compactLaterMembers rest)
termination_by structural ms => ms

/-- Later members, each behind a comma, and the brace behind them. -/
def compactLaterMembers : List (String × Json) → List Char
  | [] => ['}']
  | (k, v) :: rest => ',' :: (quote k ++ ':' :: (compactChars v ++ compactLaterMembers rest))
termination_by structural ms => ms

end

def newLine (level : Nat) : List Char :=
  '\n' :: List.replicate (2 * level) ' '

mutual

/-- A value laid out over lines, at a level of nesting. An empty array or object stays on its line.
-/
def prettyChars (level : Nat) : Json → List Char
  | null => nullText
  | boolean b => booleanText b
  | number n => n.text
  | string s => quote s
  | array items => '[' :: prettyItems level items
  | object ms => '{' :: prettyMembers level ms
termination_by structural v => v

/-- The items of an array at this level and the bracket behind them. -/
def prettyItems (level : Nat) : List Json → List Char
  | [] => [']']
  | v :: rest => newLine (level + 1) ++ prettyChars (level + 1) v ++ prettyLaterItems level rest
termination_by structural vs => vs

/-- Later items at this level, each behind a comma, and the bracket behind them. -/
def prettyLaterItems (level : Nat) : List Json → List Char
  | [] => newLine level ++ [']']
  | v :: rest =>
    ',' :: (newLine (level + 1) ++ prettyChars (level + 1) v ++ prettyLaterItems level rest)
termination_by structural vs => vs

/-- The members of an object at this level and the brace behind them. -/
def prettyMembers (level : Nat) : List (String × Json) → List Char
  | [] => ['}']
  | (k, v) :: rest =>
    newLine (level + 1) ++ quote k ++ ':' :: ' ' :: prettyChars (level + 1) v ++
      prettyLaterMembers level rest
termination_by structural ms => ms

/-- Later members at this level, each behind a comma, and the brace behind them. -/
def prettyLaterMembers (level : Nat) : List (String × Json) → List Char
  | [] => newLine level ++ ['}']
  | (k, v) :: rest =>
    ',' :: (newLine (level + 1) ++ quote k ++ ':' :: ' ' :: prettyChars (level + 1) v ++
      prettyLaterMembers level rest)
termination_by structural ms => ms

end

def compact (v : Json) : String :=
  String.ofList v.compactChars

def pretty (v : Json) : String :=
  String.ofList (v.prettyChars 0)

end RamlSchema.Json
