import RateGate.Http.Fields
import RateGate.Http.Status

/-!
# Requests and responses

Of a request only its fields and its body matter here, and of a response its status, fields and
body. A plain response says its status in words; a template is a response that may repeat the body
of the request it answers.
-/

namespace RateGate

structure Request where
  fields : Fields
  body : String
  deriving DecidableEq

structure Response where
  status : Status
  fields : Fields
  body : String
  deriving DecidableEq

namespace Response

/-- The response with no more than a status: its reason phrase as plain text. -/
def ofStatus (status : Status) : Response where
  status := status
  fields := Fields.empty.insert .contentType (.ofPlain "text/plain; charset=utf-8" (by decide))
  body := status.reason?.getD ""

/-- The response with its fields changed. -/
def mapFields (change : Fields → Fields) (r : Response) : Response :=
  { r with fields := change r.fields }

end Response

/-- A response to be filled in for each request. -/
structure Template where
  status : Status
  fields : Fields
  /-- The body, or nothing to repeat the body of the request. -/
  body : Option String
  deriving DecidableEq

/-- The response of a template to a request. -/
def Template.fill (t : Template) (r : Request) : Response :=
  ⟨t.status, t.fields, t.body.getD r.body⟩

end RateGate
