import RamlSchema.CommandLine.Program
import RamlSchema.Proofs.Text.Utf8

/-!
# Files on a host

A command that is given a path sees of its host only what is in the file there. A text in a file is
its octets, and from these the program gets the text.
-/

namespace RamlSchema

/-- There is a file with a text under a path. -/
structure Host.Holds {m : Type → Type} [Monad m] (host : Host m) (path text : String) : Prop where
  isPresent : host.isPresent path = pure true
  fileContent : host.fileContent path = pure (.ok text.octets)

theorem textOfFile_octets (path text : String) : textOfFile path text.octets = .ok text := by
  rw [textOfFile, String.octets, Utf8.decode?_encode]
  exact congrArg Except.ok String.ofList_toList

theorem Host.Holds.loadSchema {m : Type → Type} [Monad m] [LawfulMonad m] {host : Host m}
    {path text : String} (h : host.Holds path text) :
    loadSchema host path = pure (loadSchemaText text) := by
  simp only [RamlSchema.loadSchema, loadText, h.isPresent, h.fileContent, pure_bind, if_true,
    textOfFile_octets]

/-- A system with one file. -/
def oneFile (path text : String) : Host Id where
  isPresent p := pure (p = path)
  fileContent p := pure (if p = path then .ok text.octets else .error .notFound)
  writeFile _ _ := pure (.error .permissionDenied)
  createDocument _ _ := pure (.error ⟨.permissionDenied, path⟩)
  removeDocument _ := pure ()
  runProgram _ _ := pure (.error .notFound)

theorem holds_oneFile (path text : String) : (oneFile path text).Holds path text :=
  ⟨by simp [oneFile], by simp [oneFile]⟩

end RamlSchema
