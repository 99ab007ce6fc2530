/-!
# Names of header fields

A field name is a token of 1 to 65535 ASCII characters. Case does not matter, so a name is kept in
lower case and two names are equal exactly when their texts are.
-/

namespace RateGate

/-- A character of a field name in lower case. -/
def isNameChar (c : Char) : Bool :=
  c.isLower || c.isDigit || "!#$%&'*+-.^_`|~".toList.contains c

/-- Whether a text is a field name in lower case. -/
def isName (s : String) : Bool :=
  decide (1 ≤ s.length) && decide (s.length ≤ 65535) && s.toList.all isNameChar

/-- The name of a header field, in lower case. -/
structure FieldName where
  text : String
  valid : isName text = true
  deriving DecidableEq

namespace FieldName

/-- The name spelled by these bytes in either case, if they spell one. -/
def ofBytes? (bytes : List UInt8) : Option FieldName :=
  let text := String.ofList (bytes.map fun b => (Char.ofNat b.toNat).toLower)
  if h : isName text = true then some ⟨text, h⟩ else none

/-- Names in alphabetical order. -/
def le (a b : FieldName) : Bool := decide (a.text ≤ b.text)

def contentType : FieldName := ⟨"content-type", by decide⟩
def retryAfter : FieldName := ⟨"retry-after", by decide⟩
def realIp : FieldName := ⟨"x-real-ip", by decide⟩
def apiKey : FieldName := ⟨"x-api-key", by decide⟩
def rateLimit : FieldName := ⟨"x-ratelimit-limit", by decide⟩
def ratePolicy : FieldName := ⟨"x-ratelimit-policy", by decide⟩
def rateRemaining : FieldName := ⟨"x-ratelimit-remaining", by decide⟩
def rateReset : FieldName := ⟨"x-ratelimit-reset", by decide⟩

end FieldName

end RateGate
