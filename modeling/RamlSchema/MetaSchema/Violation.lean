import RamlSchema.MetaSchema.Basic

/-!
# Violations

What is wrong with a value, and where. The message names the value in its compact text, except that
a missing member is named by itself.
-/

namespace RamlSchema

/-- How a value breaks a keyword. -/
inductive Offence
  | wrongKind (allowed : List Kind)
  | noBranch
  | notAllowed (allowed : List Json)
  | below (bound : Int)
  | notAbove (bound : Int)
  | tooFewItems (count : Nat)
  | repeatedItems
  | missing (name : String)
  | badFormat (form : TextFormat)
  deriving DecidableEq, Repr

namespace Offence

def listNames : List String → List Char
  | [] => []
  | [s] => Json.quote s
  | s :: rest => Json.quote s ++ ", ".toList ++ listNames rest

def sortedNames (kinds : List Kind) : List String :=
  (kinds.map Kind.name).mergeSort

def remark (value : Json) : Offence → List Char
  | wrongKind [k] => value.compactChars ++ " is not of type ".toList ++ Json.quote k.name
  | wrongKind ks =>
    value.compactChars ++ " is not of types ".toList ++ listNames (sortedNames ks)
  | noBranch =>
    value.compactChars ++
      " is not valid under any of the schemas listed in the 'anyOf' keyword".toList
  | notAllowed allowed =>
    value.compactChars ++ " is not one of ".toList ++ (Json.array allowed).compactChars
  | below bound =>
    value.compactChars ++ " is less than the minimum of ".toList ++ Number.integerText bound
  | notAbove bound =>
    value.compactChars ++ " is less than or equal to the minimum of ".toList ++
      Number.integerText bound
  | tooFewItems count =>
    value.compactChars ++ " has less than ".toList ++ Nat.toDigits 10 count ++
      (if count = 1 then " item" else " items").toList
  | repeatedItems => value.compactChars ++ " has non-unique elements".toList
  | missing name => Json.quote name ++ " is a required property".toList
  | badFormat form =>
    value.compactChars ++ " is not a ".toList ++ Json.quote form.name

end Offence

/-- A value that breaks a keyword. The steps that lead to its place are kept last one first. -/
structure Violation where
  reversedSteps : List Step
  value : Json
  offence : Offence
  deriving DecidableEq, Repr

namespace Violation

def steps (v : Violation) : List Step :=
  v.reversedSteps.reverse

def pointer (v : Violation) : List Char :=
  Pointer.ofSegments (v.steps.map Step.text)

def path (v : Violation) : String :=
  String.ofList (Pointer.dataPath v.pointer)

def message (v : Violation) : String :=
  String.ofList (v.offence.remark v.value)

end Violation

end RamlSchema
