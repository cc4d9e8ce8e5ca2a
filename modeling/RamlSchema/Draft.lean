import RamlSchema.Json.Basic
import RamlSchema.Text.Blank
import RamlSchema.Text.Split

/-!
# Drafts of JSON Schema

The three drafts that schemas are written in, the two digits that select one, and the URI by which a
schema names its own. A schema URI is recognised with either scheme and with any number of `#`
behind it.
-/

namespace RamlSchema

/-- A draft of JSON Schema. -/
inductive Draft
  | draft04
  | draft06
  | draft07
  deriving DecidableEq, Repr

namespace Draft

def selector : Draft → String
  | draft04 => "04"
  | draft06 => "06"
  | draft07 => "07"

def ofSelector? (s : String) : Option Draft :=
  if s = "04" then some draft04
  else if s = "06" then some draft06
  else if s = "07" then some draft07
  else none

def location : Draft → String
  | draft04 => "json-schema.org/draft-04/schema"
  | draft06 => "json-schema.org/draft-06/schema"
  | draft07 => "json-schema.org/draft-07/schema"

/-- The URI that a schema of this draft carries under `$schema`. -/
def metaSchemaUri (d : Draft) : String :=
  "http://" ++ d.location ++ "#"

def ofLocation? (cs : List Char) : Option Draft :=
  if cs = draft04.location.toList then some draft04
  else if cs = draft06.location.toList then some draft06
  else if cs = draft07.location.toList then some draft07
  else none

/-- The draft that a URI names, if it is one of the three. -/
def ofMetaSchemaUri? (uri : String) : Option Draft :=
  let cs := dropEnd (· == '#') uri.toList
  match afterStart? "https://".toList cs with
  | some rest => ofLocation? rest
  | none => (afterStart? "http://".toList cs).bind ofLocation?

theorem ofSelector?_selector (d : Draft) : ofSelector? d.selector = some d := by
  cases d <;> rfl

end Draft

end RamlSchema
