import Mathlib.Data.List.Forall2
import Mathlib.Logic.Relation
import RateGate.Extractor
import RateGate.Proofs.Bytes

/-!
# What a field extractor depends on

The extractor of a header field reads the first value of one name, checks that it is text, and takes
the blanks off its ends, in this order.

**Theorem (`field_reads_first`).** It answers that the field is missing exactly if no entry has the
name, that it is not text exactly if the first value of the name has a byte that is neither visible
nor a tab, and else the identifier of that value without the blanks around it. So it makes no
difference what other fields there are and in which order, what comes after the first value of the
name, or how many blanks are put around that value (`Edit`), however often any of this is changed.

Names are the same in either case, and fields are kept in the order in which they were sent
(`entries_of_ofRaw`).
-/

namespace RateGate

/-! ## Names in either case -/

namespace FieldName

/-- The bytes are those of the name, but for the case of letters. -/
def Spelled (name : FieldName) (bytes : List UInt8) : Prop := bytes.map lower = utf8 name.text

theorem plain_of_isNameChar {c : Char} (h : isNameChar c = true) :
    isPlainChar c = true ∧ c.toLower = c := by
  have hall : ∀ n < 128, isNameChar (Char.ofNat n) = true →
      isPlainChar (Char.ofNat n) = true ∧ (Char.ofNat n).toLower = Char.ofNat n := by
    decide +kernel
  have hother : ("!#$%&'*+-.^_`|~".toList.all fun c => decide (c.toNat < 128)) = true := by decide
  have hascii : c.toNat < 128 := by
    have hname := h
    rw [isNameChar, Bool.or_eq_true, Bool.or_eq_true] at hname
    rcases hname with (hlower | hdigit) | hmem
    · have hz : c.val ≤ 122 := of_decide_eq_true (Bool.and_eq_true_iff.1 hlower).2
      exact Nat.lt_of_le_of_lt (UInt32.le_iff_toNat_le.1 hz) (by decide)
    · have hnine := isPlainChar_of_isDigit hdigit
      rw [isPlainChar, Bool.and_eq_true, decide_eq_true_eq, decide_eq_true_eq] at hnine
      omega
    · exact of_decide_eq_true (List.all_eq_true.1 hother c (List.contains_iff_mem.1 hmem))
  have hchar := hall c.toNat hascii
  rw [Char.ofNat_toNat] at hchar
  exact hchar h

theorem isNameChar_of_mem_text {name : FieldName} {c : Char} (h : c ∈ name.text.toList) :
    isNameChar c = true := by
  have hvalid := name.valid
  rw [isName, Bool.and_eq_true] at hvalid
  exact List.all_eq_true.1 hvalid.2 c h

theorem isPlain_text (name : FieldName) : isPlain name.text = true := by
  rw [isPlain, List.all_eq_true]
  intro c hc
  exact (plain_of_isNameChar (isNameChar_of_mem_text hc)).1

theorem spelled_iff {name : FieldName} {bytes : List UInt8} :
    name.Spelled bytes ↔ bytes.map (fun b => (charOf b).toLower) = name.text.toList := by
  have hlower : bytes.map (fun b => (charOf b).toLower) = (bytes.map lower).map charOf := by
    simp [toLower_charOf]
  rw [hlower, ← map_utf8_of_isPlain name.isPlain_text,
    (List.map_injective_iff.2 charOf_injective).eq_iff]
  rfl

theorem ofBytes?_eq_some_iff {bytes : List UInt8} {name : FieldName} :
    ofBytes? bytes = some name ↔ name.Spelled bytes := by
  rw [spelled_iff, ← String.toList_ofList (l := bytes.map _), String.toList_inj]
  constructor
  · intro h
    rw [ofBytes?] at h
    split at h
    · cases h
      rfl
    · cases h
  · intro h
    have hvalid := name.valid
    rw [← h] at hvalid
    rw [ofBytes?, dif_pos hvalid]
    congr

/-- A name is in lower case: it is spelled by itself. -/
theorem spelled_text (name : FieldName) : name.Spelled (utf8 name.text) := by
  have hself : name.text.toList.map Char.toLower = name.text.toList := by
    refine (List.map_congr_left fun c hc => ?_).trans (List.map_id _)
    exact (plain_of_isNameChar (isNameChar_of_mem_text hc)).2
  rw [spelled_iff]
  conv_rhs => rw [← hself, ← map_utf8_of_isPlain name.isPlain_text]
  simp

end FieldName

/-! ## First values -/

namespace Fields

/-- An entry is read from what was sent: the name in either case, the value byte for byte. -/
def SentAs (sent : List UInt8 × List UInt8) (entry : FieldName × FieldValue) : Prop :=
  entry.1.Spelled sent.1 ∧ entry.2.bytes = sent.2

theorem entries_of_appendRaw {f g : Fields} {sent : List UInt8 × List UInt8}
    (h : f.appendRaw sent = .ok g) :
    ∃ entry, g.entries = f.entries ++ [entry] ∧ SentAs sent entry := by
  rw [appendRaw] at h
  split at h
  · cases h
  · cases h
  · rename_i name value hname hvalue
    cases h
    refine ⟨(name, value), rfl, FieldName.ofBytes?_eq_some_iff.1 hname, ?_⟩
    rw [FieldValue.ofBytes?] at hvalue
    split at hvalue
    · cases hvalue
      rfl
    · cases hvalue

theorem entries_of_foldlM {raw : List (List UInt8 × List UInt8)} {f g : Fields}
    (h : raw.foldlM appendRaw f = .ok g) :
    ∃ entries, g.entries = f.entries ++ entries ∧ List.Forall₂ SentAs raw entries := by
  induction raw generalizing f with
  | nil =>
    cases h
    exact ⟨[], (List.append_nil _).symm, .nil⟩
  | cons sent raw ih =>
    rw [List.foldlM_cons] at h
    cases hsent : f.appendRaw sent with
    | error fault =>
      rw [hsent] at h
      cases h
    | ok next =>
      rw [hsent] at h
      obtain ⟨entry, hentry, hfirst⟩ := entries_of_appendRaw hsent
      obtain ⟨entries, hentries, hrest⟩ := ih h
      refine ⟨entry :: entries, ?_, .cons hfirst hrest⟩
      rw [hentries, hentry, List.append_assoc, List.singleton_append]

theorem entries_of_ofRaw {raw : List (List UInt8 × List UInt8)} {f : Fields}
    (h : ofRaw raw = .ok f) : List.Forall₂ SentAs raw f.entries := by
  obtain ⟨entries, hentries, hsent⟩ := entries_of_foldlM h
  rw [hentries]
  exact hsent

/-- `value` is the value of the first entry of a name. -/
def First (f : Fields) (name : FieldName) (value : FieldValue) : Prop :=
  ∃ before after, f.entries = before ++ (name, value) :: after ∧ ∀ e ∈ before, e.1 ≠ name

variable {f : Fields} {name : FieldName} {value : FieldValue}

theorem get?_eq_find? (f : Fields) (name : FieldName) :
    f.get? name = (f.entries.find? fun e => e.1 = name).map Prod.snd := by
  rw [get?, values, List.head?_map, List.head?_filter]

theorem get?_eq_none_iff : f.get? name = none ↔ ∀ e ∈ f.entries, e.1 ≠ name := by
  simp [get?_eq_find?]

theorem get?_eq_some_iff : f.get? name = some value ↔ f.First name value := by
  rw [get?_eq_find?, Option.map_eq_some_iff]
  constructor
  · rintro ⟨⟨found, value⟩, hfind, rfl⟩
    obtain ⟨hfound, before, after, hentries, hbefore⟩ := List.find?_eq_some_iff_append.1 hfind
    obtain rfl := of_decide_eq_true hfound
    refine ⟨before, after, hentries, fun e he => ?_⟩
    simpa using hbefore e he
  · rintro ⟨before, after, hentries, hbefore⟩
    refine ⟨(name, value), ?_, rfl⟩
    refine List.find?_eq_some_iff_append.2 ⟨by simp, before, after, hentries, fun e he => ?_⟩
    simpa using hbefore e he

end Fields

namespace Extractor

variable {name : FieldName} {fields : Fields} {body : String}

/-! ## The three answers -/

theorem isText_iff {value : FieldValue} :
    value.isText = true ↔ ∀ b ∈ value.bytes, isVisible b = true ∨ b = tab := by
  simp [FieldValue.isText]

theorem isText_eq_false_iff {value : FieldValue} :
    value.isText = false ↔ ∃ b ∈ value.bytes, isVisible b = false ∧ b ≠ tab := by
  simp [FieldValue.isText]

theorem field_of_none (h : fields.get? name = none) :
    field name ⟨fields, body⟩ = .error (.missingField name.text) := by
  simp only [field, h]

theorem field_of_some {value : FieldValue} (h : fields.get? name = some value) :
    field name ⟨fields, body⟩ =
      if value.isText then .ok (.ofBytes (trim value.bytes)) else .error (.notText name.text) := by
  simp only [field, h]

theorem field_eq_missing_iff :
    field name ⟨fields, body⟩ = .error (.missingField name.text) ↔
      ∀ e ∈ fields.entries, e.1 ≠ name := by
  rw [← Fields.get?_eq_none_iff]
  cases hget : fields.get? name with
  | none => simp [field_of_none hget]
  | some value =>
    rw [field_of_some hget]
    split <;> simp

theorem field_eq_notText_iff :
    field name ⟨fields, body⟩ = .error (.notText name.text) ↔
      ∃ value, fields.First name value ∧ ∃ b ∈ value.bytes, isVisible b = false ∧ b ≠ tab := by
  simp only [← Fields.get?_eq_some_iff, ← isText_eq_false_iff]
  cases hget : fields.get? name with
  | none => simp [field_of_none hget]
  | some value =>
    rw [field_of_some hget]
    cases htext : value.isText <;> simp [htext]

theorem field_eq_ok_iff {id : Identifier} :
    field name ⟨fields, body⟩ = .ok id ↔
      ∃ value key, fields.First name value ∧ (∀ b ∈ value.bytes, isVisible b = true ∨ b = tab) ∧
        Trims value.bytes key ∧ id = .ofBytes key := by
  simp only [← Fields.get?_eq_some_iff, ← isText_iff, ← trim_eq_iff]
  cases hget : fields.get? name with
  | none => simp [field_of_none hget]
  | some value =>
    rw [field_of_some hget]
    cases htext : value.isText <;> simp [htext, @eq_comm _ id]

/-! ## What makes no difference -/

/-- One way to change the fields of a request that makes no difference to the bucket of a name. -/
inductive Edit (name : FieldName) : Fields → Fields → Prop
  /-- One more entry of another name, anywhere. -/
  | add (before after : List (FieldName × FieldValue)) (e : FieldName × FieldValue) :
      e.1 ≠ name → Edit name ⟨before ++ after⟩ ⟨before ++ e :: after⟩
  /-- Two neighbours, not both of the name, in the other order. -/
  | swap (before after : List (FieldName × FieldValue)) (d e : FieldName × FieldValue) :
      (d.1 ≠ name ∨ e.1 ≠ name) →
      Edit name ⟨before ++ d :: e :: after⟩ ⟨before ++ e :: d :: after⟩
  /-- Anything else after an entry of the name. -/
  | later (before after instead : List (FieldName × FieldValue)) (value : FieldValue) :
      Edit name ⟨before ++ (name, value) :: after⟩ ⟨before ++ (name, value) :: instead⟩
  /-- Blanks around the first value of the name. -/
  | pad (before after : List (FieldName × FieldValue)) (value padded : FieldValue)
      (front back : List UInt8) :
      (∀ e ∈ before, e.1 ≠ name) → padded.bytes = front ++ value.bytes ++ back →
      (∀ b ∈ front, isBlank b = true) → (∀ b ∈ back, isBlank b = true) →
      Edit name ⟨before ++ (name, value) :: after⟩ ⟨before ++ (name, padded) :: after⟩

theorem isText_pad {value padded : FieldValue} {front back : List UInt8}
    (hpad : padded.bytes = front ++ value.bytes ++ back) (hfront : ∀ b ∈ front, isBlank b = true)
    (hback : ∀ b ∈ back, isBlank b = true) : padded.isText = value.isText := by
  have hblank : ∀ b, isBlank b = true → (isVisible b || b == tab) = true := by
    intro b hb
    simp only [isBlank, Bool.or_eq_true, beq_iff_eq] at hb
    rcases hb with rfl | rfl <;> rfl
  have hall (blanks : List UInt8) (h : ∀ b ∈ blanks, isBlank b = true) :
      (blanks.all fun b => isVisible b || b == tab) = true := by
    rw [List.all_eq_true]
    exact fun b hb => hblank b (h b hb)
  rw [FieldValue.isText, FieldValue.isText, hpad, List.all_append, List.all_append,
    hall front hfront, hall back hback, Bool.true_and, Bool.and_true]

theorem field_congr {f g : Fields} (h : f.get? name = g.get? name) (body text : String) :
    field name ⟨f, body⟩ = field name ⟨g, text⟩ := by
  simp only [field, h]

/-- No edit changes the first value of the name but by blanks around it. -/
theorem Edit.field_eq {f g : Fields} (h : Edit name f g) (body text : String) :
    field name ⟨f, body⟩ = field name ⟨g, text⟩ := by
  cases h with
  | add before after e he =>
    apply field_congr
    simp [Fields.get?_eq_find?, List.find?_append, he]
  | swap before after d e hne =>
    apply field_congr
    rcases hne with hd | he
    · simp [Fields.get?_eq_find?, List.find?_append, List.find?_cons, hd]
    · simp [Fields.get?_eq_find?, List.find?_append, List.find?_cons, he]
  | later before after instead value =>
    apply field_congr
    simp [Fields.get?_eq_find?, List.find?_append]
  | pad before after value padded front back hbefore hpad hfront hback =>
    have hfirst (v : FieldValue) :
        (⟨before ++ (name, v) :: after⟩ : Fields).get? name = some v :=
      Fields.get?_eq_some_iff.2 ⟨before, after, rfl, hbefore⟩
    rw [field_of_some (hfirst value), field_of_some (hfirst padded),
      isText_pad hpad hfront hback, hpad, trim_append _ hfront hback]

theorem field_eq_of_eqvGen {f g : Fields} (h : Relation.EqvGen (Edit name) f g)
    (body text : String) : field name ⟨f, body⟩ = field name ⟨g, text⟩ := by
  induction h generalizing body text with
  | rel f g hedit => exact hedit.field_eq body text
  | refl f => rfl
  | symm f g _ ih => exact (ih text body).symm
  | trans f g h _ _ ihf ihg => exact (ihf body body).trans (ihg body text)

/-- **What a field extractor depends on.** For any fields and any name. The field is missing exactly
if no entry has the name, which is told in lower case. It is not text exactly if the first value of
the name has a byte that is neither visible nor a tab. An identifier is found exactly if there is a
first value and all its bytes are visible or tabs, and it is that of the value without the blanks at
its ends. No edits make a difference, nor does the body. And the entries are those that were sent,
in the same order, whatever the case of the names. -/
theorem field_reads_first (name : FieldName) (fields : Fields) (body : String) :
    (field name ⟨fields, body⟩ = .error (.missingField name.text) ↔
      ∀ e ∈ fields.entries, e.1 ≠ name) ∧
    (field name ⟨fields, body⟩ = .error (.notText name.text) ↔
      ∃ value, fields.First name value ∧ ∃ b ∈ value.bytes, isVisible b = false ∧ b ≠ tab) ∧
    (∀ id, field name ⟨fields, body⟩ = .ok id ↔
      ∃ value key, fields.First name value ∧ (∀ b ∈ value.bytes, isVisible b = true ∨ b = tab) ∧
        Trims value.bytes key ∧ id = .ofBytes key) ∧
    (∀ other text, Relation.EqvGen (Edit name) fields other →
      field name ⟨other, text⟩ = field name ⟨fields, body⟩) ∧
    name.Spelled (utf8 name.text) ∧
    ∀ raw, Fields.ofRaw raw = .ok fields → List.Forall₂ Fields.SentAs raw fields.entries :=
  ⟨field_eq_missing_iff, field_eq_notText_iff, fun _ => field_eq_ok_iff,
    fun _ text hedits => (field_eq_of_eqvGen hedits body text).symm, name.spelled_text,
    fun _ hraw => Fields.entries_of_ofRaw hraw⟩

/-- Fields as they may be sent: an address with blanks around it, between fields that do not
count. -/
def sentFields : List (List UInt8 × List UInt8) :=
  [(utf8 "Accept", utf8 "text/plain"), (utf8 "X-Real-IP", utf8 " 10.0.0.1\t"),
    (utf8 "x-real-ip", [255])]

def accept : FieldName := ⟨"accept", by decide⟩

/-- The fields that are read from those sent. -/
def paddedFields : Fields :=
  ⟨[(accept, ⟨utf8 "text/plain", by decide⟩), (.realIp, ⟨utf8 " 10.0.0.1\t", by decide⟩),
    (.realIp, ⟨[255], by decide⟩)]⟩

/-- The address alone. -/
def bareFields : Fields := ⟨[(.realIp, ⟨utf8 "10.0.0.1", by decide⟩)]⟩

theorem field_reads_first_paddedFields :
    Fields.ofRaw sentFields = .ok paddedFields ∧
      List.Forall₂ Fields.SentAs sentFields paddedFields.entries ∧
      Relation.EqvGen (Edit .realIp) bareFields paddedFields ∧
      field .realIp ⟨paddedFields, ""⟩ = field .realIp ⟨bareFields, "body"⟩ ∧
      field .realIp ⟨bareFields, "body"⟩ = .ok (.ofText "10.0.0.1") := by
  have hread : Fields.ofRaw sentFields = .ok paddedFields := by decide
  have hedits : Relation.EqvGen (Edit .realIp) bareFields paddedFields := by
    refine .trans _ _ _
      (.rel _ _ (.pad [] [] _ ⟨utf8 " 10.0.0.1\t", by decide⟩ [32] [9] ?_ ?_ ?_ ?_))
      (.trans _ _ _ (.rel _ _ (.later [] [] [(.realIp, ⟨[255], by decide⟩)] _))
        (.rel _ _ (.add [] _ (accept, ⟨utf8 "text/plain", by decide⟩) ?_))) <;> decide +kernel
  have hbare := field_reads_first .realIp bareFields "body"
  exact ⟨hread, (field_reads_first .realIp paddedFields "").2.2.2.2.2 _ hread, hedits,
    hbare.2.2.2.1 _ _ hedits, by decide⟩

end Extractor

end RateGate
