import RamlSchema.Fix.ExampleList
import RamlSchema.Fix.FileType
import RamlSchema.Fix.VendorName

/-!
# Fixing a processor's schema

The three rules, each over the whole tree. Files come first, because their list of media types
stands under a vendor name.
-/

namespace RamlSchema

/-- The schema in which files are binary strings, vendor names are plain and examples are lists. -/
def fixSchema (schema : Json) : Json :=
  ExampleList.rule.fix (VendorName.rule.fix (FileType.rule.fix schema))

end RamlSchema
