import RateGate.Http.Message
import RateGate.Identifier

/-!
# Extractors

An extractor says which bucket a request is counted in, or why it cannot say. The extractor of a
header field hashes the first value of the field, without the blanks around it, and refuses a
request whose field is absent or is not text.
-/

namespace RateGate

/-- Why no identifier could be derived from a request. -/
inductive ExtractError where
  | missingField (name : String)
  | notText (name : String)
  | other (text : String)
  deriving DecidableEq

def ExtractError.message : ExtractError → String
  | .missingField name => "missing header " ++ name
  | .notText name => "header " ++ name ++ " is not valid text"
  | .other text => text

/-- A rule that derives an identifier from a request. -/
abbrev Extractor := Request → Except ExtractError Identifier

namespace Extractor

/-- One bucket, whatever the request. -/
def constant (id : Identifier) : Extractor := fun _ => .ok id

/-- One bucket for requests that are not told apart. -/
def global : Extractor := constant .shared

/-- A bucket for each body. -/
def body : Extractor := fun request => .ok (.ofText request.body)

/-- No bucket, and always the same reason. -/
def failing (text : String) : Extractor := fun _ => .error (.other text)

/-- A bucket for each value of a header field. -/
def field (name : FieldName) : Extractor := fun request =>
  match request.fields.get? name with
  | none => .error (.missingField name.text)
  | some value =>
    if value.isText then .ok (.ofBytes (trim value.bytes)) else .error (.notText name.text)

end Extractor

end RateGate
