import RamlSchema.Format.Pattern
import RamlSchema.Format.Uri
import RamlSchema.MetaSchema.Violation

/-!
# Evaluation of a meta-schema

A keyword is checked with the help of a check for the nodes inside it, and a node is checked by its
keywords in order, so that the first violation in the order of the meta-schema is the one that is
found. References make meta-schemas cyclic, so a check has a number of nested steps; each way round
a cycle goes into the value, and four steps for every level of its depth are enough.
-/

namespace RamlSchema

def TextFormat.accepts : TextFormat → String → Bool
  | regex, s => Pattern.isPattern s
  | uri, s => Uri.isUri s
  | uriReference, s => Uri.isReference s

namespace MetaSchema

/-- Why a check ends early. -/
inductive Stop
  | violation (v : Violation)
  | outOfSteps
  deriving DecidableEq, Repr

abbrev Verdict :=
  Except Stop Unit

/-- A check of a node at a place, whose steps are given last one first. -/
abbrev Check :=
  Node → List Step → Json → Verdict

def isOfKind (wholeFloats : Bool) : Kind → Json → Bool
  | .array, .array _ => true
  | .boolean, .boolean _ => true
  | .integer, .number n => n.isIntegerLiteral || (wholeFloats && n.isWhole)
  | .null, .null => true
  | .number, .number _ => true
  | .object, .object _ => true
  | .string, .string _ => true
  | _, _ => false

/-- A violation unless a condition holds. -/
def require (condition : Bool) (place : List Step) (v : Json) (offence : Offence) : Verdict :=
  if condition then .ok () else .error (.violation ⟨place, v, offence⟩)

/-- The first check in a list that does not pass decides. -/
def inOrder {α : Type} (f : α → Verdict) : List α → Verdict
  | [] => .ok ()
  | a :: rest =>
    match f a with
    | .ok () => inOrder f rest
    | .error stop => .error stop

/-- Checks items from an index on, each at its own place. -/
def eachItem (f : List Step → Json → Verdict) (place : List Step) : Nat → List Json → Verdict
  | _, [] => .ok ()
  | i, v :: rest =>
    match f (.index i :: place) v with
    | .ok () => eachItem f place (i + 1) rest
    | .error stop => .error stop

/-- One branch that passes is enough. What is wrong in a branch is not told. -/
def someBranch (f : Node → Verdict) (otherwise : Verdict) : List Node → Verdict
  | [] => otherwise
  | branch :: rest =>
    match f branch with
    | .ok () => .ok ()
    | .error .outOfSteps => .error .outOfSteps
    | .error (.violation _) => someBranch f otherwise rest

/-- The bound as a rational is at most, or with `strict` below, the number. -/
def exceeds (strict : Bool) (bound : Int) (n : Number) : Bool :=
  if strict then decide ((bound : Rat) < n.toRat) else decide ((bound : Rat) ≤ n.toRat)

/-- One keyword, with a check for the nodes inside it. Values of a kind that the keyword does not
speak of pass. -/
def checkKeyword (wholeFloats : Bool) (check : Check) (place : List Step) (v : Json) :
    Keyword → Verdict
  | .type kinds => require (kinds.any (isOfKind wholeFloats · v)) place v (.wrongKind kinds)
  | .properties named =>
    match v with
    | .object ms => inOrder (fun (name, node) =>
        match Members.find? name ms with
        | some w => check node (.name name :: place) w
        | none => .ok ()) named
    | _ => .ok ()
  | .additionalProperties node =>
    match v with
    | .object ms => inOrder (fun (name, w) => check node (.name name :: place) w) ms
    | _ => .ok ()
  | .propertyNames node =>
    match v with
    | .object ms => inOrder (fun (name, _) => check node place (.string name)) ms
    | _ => .ok ()
  | .dependencies named =>
    match v with
    | .object ms => inOrder (fun (name, needed) =>
        if Members.has name ms then
          inOrder (fun other => require (Members.has other ms) place v (.missing other)) needed
        else .ok ()) named
    | _ => .ok ()
  | .items node =>
    match v with
    | .array vs => eachItem (check node) place 0 vs
    | _ => .ok ()
  | .minItems count =>
    match v with
    | .array vs => require (count ≤ vs.length) place v (.tooFewItems count)
    | _ => .ok ()
  | .uniqueItems =>
    match v with
    | .array vs => require (Json.allDistinct vs) place v .repeatedItems
    | _ => .ok ()
  | .minimum bound =>
    match v with
    | .number n => require (exceeds false bound n) place v (.below bound)
    | _ => .ok ()
  | .exclusiveMinimum bound =>
    match v with
    | .number n => require (exceeds true bound n) place v (.notAbove bound)
    | _ => .ok ()
  | .enum allowed => require (allowed.any (v.sameValue false)) place v (.notAllowed allowed)
  | .format form =>
    match v with
    | .string s => require (form.accepts s) place v (.badFormat form)
    | _ => .ok ()
  | .anyOf branches =>
    someBranch (fun branch => check branch place v) (require false place v .noBranch) branches
  | .allOf branches => inOrder (fun branch => check branch place v) branches

/-- A check of nodes with at most so many nested steps. -/
def check (m : MetaSchema) : Nat → Check
  | 0, _, _, _ => .error .outOfSteps
  | steps + 1, .reference target, place, v => check m steps (m.define target) place v
  | steps + 1, .keywords all, place, v =>
    inOrder (checkKeyword m.wholeFloats (check m steps) place v) all

def stepsFor (v : Json) : Nat :=
  4 * (v.depth + 1)

def verdict (m : MetaSchema) (v : Json) : Verdict :=
  check m (stepsFor v) (m.define .root) [] v

end MetaSchema

end RamlSchema
