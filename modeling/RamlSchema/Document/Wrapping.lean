import RamlSchema.Text.Blank
import RamlSchema.Text.Split

/-!
# Wrapping a RAML library

A processor of RAML gives schemas only for types that some operation returns. So a library of types
is turned into an API document: its first line becomes that of an API, and a resource is put behind
it whose only response is the wanted type. The library itself is not looked into.
-/

namespace RamlSchema.Document

def libraryHeader : List Char :=
  "#%RAML 1.0 Library".toList

def apiHeader : List Char :=
  "#%RAML 1.0".toList

/-- The first line without white space at its end. -/
def header (text : List Char) : List Char :=
  trimEnd (firstLine text)

/-- Why a document is refused: the header it has instead. -/
structure WrongHeader where
  found : String
  deriving DecidableEq, Repr

/-- A document must be a library of types or an API. -/
def checkHeader (raml : String) : Except WrongHeader Unit :=
  let found := header raml.toList
  if found = libraryHeader || found = apiHeader then .ok ()
  else .error ⟨String.ofList found⟩

def endpoint (typeName : List Char) : List Char :=
  "/for/conversion/".toList ++ typeName

/-- The resource that returns a type, seven lines without a line feed at the end. -/
def resource (typeName : List Char) : List Char :=
  endpoint typeName ++
    (":\n  get:\n    responses:\n      200:\n        body:\n" ++
      "          application/json:\n            type: ").toList ++ typeName

/-- A line that reads as the library header becomes the API header, and a carriage return at its end
stays; any other line is left as it is. -/
def apiFirstLine (line : List Char) : List Char :=
  if trimEnd line = libraryHeader then
    apiHeader ++ (if line.getLast? = some '\r' then ['\r'] else [])
  else line

def isLineBreak (c : Char) : Bool :=
  c == '\r' || c == '\n'

/-- The library with the first line that an API document has, and without line breaks at its end. -/
def body (raml : List Char) : List Char :=
  dropEnd isLineBreak (apiFirstLine (firstLine raml) ++ laterLines raml)

/-- The API document that returns a type of a library: the library, an empty line, and the resource.
-/
def wrapChars (raml typeName : List Char) : List Char :=
  body raml ++ ['\n', '\n'] ++ resource typeName

def wrap (raml typeName : String) : String :=
  String.ofList (wrapChars raml.toList typeName.toList)

end RamlSchema.Document
