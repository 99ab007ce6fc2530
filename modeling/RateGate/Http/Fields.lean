import RateGate.Http.FieldName
import RateGate.Http.FieldValue

/-!
# Header fields

The fields of a message are a list of name and value pairs. One name may have several values; their
order counts, the order of different names does not. So what a list of fields means is `values`: for
each name the list of its values.
-/

namespace RateGate

/-- Why a raw list of fields was refused. -/
inductive FieldFault where
  | badName
  | badValue
  deriving DecidableEq

def FieldFault.message : FieldFault → String
  | .badName => "invalid HTTP header name"
  | .badValue => "failed to parse header value"

/-- The header fields of a message. -/
structure Fields where
  entries : List (FieldName × FieldValue)
  deriving DecidableEq

namespace Fields

def empty : Fields := ⟨[]⟩

/-- The values of a name in their order. -/
def values (f : Fields) (name : FieldName) : List FieldValue :=
  (f.entries.filter fun e => e.1 = name).map Prod.snd

/-- The first value of a name. -/
def get? (f : Fields) (name : FieldName) : Option FieldValue := (f.values name).head?

/-- Add a value after the others of its name. -/
def append (f : Fields) (name : FieldName) (value : FieldValue) : Fields :=
  ⟨f.entries ++ [(name, value)]⟩

/-- Make `value` the only value of `name`. -/
def insert (f : Fields) (name : FieldName) (value : FieldValue) : Fields :=
  ⟨f.entries.filter (fun e => e.1 ≠ name) ++ [(name, value)]⟩

/-- The entries in alphabetical order of their names, those of one name in their own order. -/
def sorted (f : Fields) : List (FieldName × FieldValue) :=
  f.entries.mergeSort fun a b => a.1.le b.1

/-- Read one pair, name before value, and add it. -/
def appendRaw (f : Fields) (raw : List UInt8 × List UInt8) : Except FieldFault Fields :=
  match FieldName.ofBytes? raw.1, FieldValue.ofBytes? raw.2 with
  | none, _ => .error .badName
  | some _, none => .error .badValue
  | some name, some value => .ok (f.append name value)

/-- The fields given as pairs of bytes; the first bad name or value is reported. -/
def ofRaw (raw : List (List UInt8 × List UInt8)) : Except FieldFault Fields :=
  raw.foldlM appendRaw empty

theorem values_insert (f : Fields) (name : FieldName) (value : FieldValue) (other : FieldName) :
    (f.insert name value).values other = if name = other then [value] else f.values other := by
  by_cases h : name = other
  · subst h
    simp [values, insert, List.filter_filter]
  · have hkeep : ∀ e ∈ f.entries,
        (decide (e.1 = other) && !decide (e.1 = name)) = decide (e.1 = other) := by
      intro e _
      by_cases he : e.1 = other <;> simp [he, Ne.symm h]
    simp [values, insert, List.filter_filter, h, List.filter_congr hkeep]

end Fields

end RateGate
