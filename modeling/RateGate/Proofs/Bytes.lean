import Mathlib.Data.List.DropRight
import RateGate.Bytes

/-!
# Bytes of texts and of field values

What is written can be read again: a plain text is the characters that its bytes name
(`map_utf8_of_isPlain`). For field names, which are plain, the same holds in lower case, whatever
the case of the bytes (`toLower_charOf`).

Trimming removes blanks and nothing else, as many as there are at either end, and none from within.
That determines what is left (`trim_eq_iff`), and so blanks put around some bytes never show in the
trimmed bytes (`trim_append`).
-/

namespace RateGate

/-! ## Characters of bytes -/

/-- The character that a byte names. -/
abbrev charOf (b : UInt8) : Char := Char.ofNat b.toNat

theorem toNat_charOf (b : UInt8) : (charOf b).toNat = b.toNat := by
  have hb : b.toNat < 256 := b.toNat_lt
  have hvalid : b.toNat.isValidChar := Or.inl (by omega)
  rw [charOf, Char.ofNat, dif_pos hvalid]
  rfl

theorem charOf_injective : Function.Injective charOf := by
  intro x y h
  rw [← UInt8.toNat_inj, ← toNat_charOf, ← toNat_charOf, h]

theorem map_utf8EncodeChar_of_isPlainChar {c : Char} (h : isPlainChar c = true) :
    (String.utf8EncodeChar c).map charOf = [c] := by
  simp only [isPlainChar, Bool.and_eq_true, decide_eq_true_eq] at h
  have hbyte : (UInt8.ofNat c.toNat).toNat = c.toNat := by
    rw [UInt8.toNat_ofNat']
    omega
  have hone : String.utf8EncodeChar c = [UInt8.ofNat c.toNat] :=
    if_pos (show c.toNat ≤ 127 by omega)
  rw [hone, List.map_singleton, charOf, hbyte, Char.ofNat_toNat]

theorem map_utf8_of_isPlain {s : String} (h : isPlain s = true) :
    (utf8 s).map charOf = s.toList := by
  rw [isPlain] at h
  rw [utf8]
  generalize s.toList = cs at h ⊢
  induction cs with
  | nil => rfl
  | cons c cs ih =>
    rw [List.all_cons, Bool.and_eq_true] at h
    rw [List.flatMap_cons, List.map_append, map_utf8EncodeChar_of_isPlainChar h.1, ih h.2,
      List.singleton_append]

/-! ## Blanks at the ends -/

/-- The key is what the bytes are without the blanks at either end. -/
structure Trims (bytes key : List UInt8) : Prop where
  split : ∃ front back, bytes = front ++ key ++ back ∧
    (∀ b ∈ front, isBlank b = true) ∧ ∀ b ∈ back, isBlank b = true
  head : ∀ b ∈ key.head?, isBlank b = false
  last : ∀ b ∈ key.getLast?, isBlank b = false

theorem eq_false_of_mem_head?_dropWhile {α : Type} {p : α → Bool} {l : List α} {a : α}
    (h : a ∈ (l.dropWhile p).head?) : p a = false := by
  have hnot := List.head?_dropWhile_not p l
  rw [h] at hnot
  exact hnot

theorem trims_trim (bytes : List UInt8) : Trims bytes (trim bytes) := by
  have htrim : trim bytes = (bytes.dropWhile isBlank).rdropWhile isBlank := rfl
  refine ⟨⟨bytes.takeWhile isBlank, (bytes.dropWhile isBlank).rtakeWhile isBlank, ?_,
    fun b => List.mem_takeWhile_imp, fun b => List.mem_rtakeWhile_imp⟩, fun b hb => ?_,
    fun b hb => ?_⟩
  · rw [htrim, List.append_assoc, List.rdropWhile_append_rtakeWhile,
      List.takeWhile_append_dropWhile]
  -- What is trimmed at the end does not take the start away, unless it takes all.
  · obtain ⟨rest, hrest⟩ := List.rdropWhile_prefix isBlank (bytes.dropWhile isBlank)
    apply eq_false_of_mem_head?_dropWhile (l := bytes)
    rw [← hrest, List.head?_append, ← htrim, hb]
    rfl
  · rw [trim, List.getLast?_reverse] at hb
    exact eq_false_of_mem_head?_dropWhile hb

theorem Trims.trim_eq {bytes key : List UInt8} (h : Trims bytes key) : trim bytes = key := by
  obtain ⟨⟨front, back, rfl, hfront, hback⟩, hhead, hlast⟩ := h
  cases key with
  | nil =>
    have hall : (front ++ [] ++ back).dropWhile isBlank = [] := by
      rw [List.dropWhile_eq_nil_iff, List.append_nil, List.forall_mem_append]
      exact ⟨hfront, hback⟩
    rw [trim, hall]
    rfl
  | cons b rest =>
    have hfirst : (front ++ b :: rest ++ back).dropWhile isBlank = b :: rest ++ back := by
      rw [List.append_assoc, List.dropWhile_append_of_pos hfront, List.cons_append,
        List.dropWhile_cons_of_neg]
      exact Bool.eq_false_iff.1 (hhead b rfl)
    have hback' : ∀ b ∈ back.reverse, isBlank b = true := by
      intro b hb
      exact hback b (List.mem_reverse.1 hb)
    rw [trim, hfirst, List.reverse_append, List.dropWhile_append_of_pos hback']
    refine List.rdropWhile_eq_self_iff.2 fun hne => Bool.eq_false_iff.1 (hlast _ ?_)
    exact List.getLast?_eq_some_getLast hne

/-- Trimming leaves the one list that has no blank at either end and differs from the bytes only by
blanks there. -/
theorem trim_eq_iff {bytes key : List UInt8} : trim bytes = key ↔ Trims bytes key :=
  ⟨fun h => h ▸ trims_trim bytes, Trims.trim_eq⟩

/-- Blanks around some bytes do not show in the trimmed bytes. -/
theorem trim_append {front back : List UInt8} (bytes : List UInt8)
    (hfront : ∀ b ∈ front, isBlank b = true) (hback : ∀ b ∈ back, isBlank b = true) :
    trim (front ++ bytes ++ back) = trim bytes := by
  obtain ⟨⟨before, after, hsplit, hbefore, hafter⟩, hhead, hlast⟩ := trims_trim bytes
  refine Trims.trim_eq ⟨⟨front ++ before, after ++ back, ?_, ?_, ?_⟩, hhead, hlast⟩
  · conv_lhs => rw [hsplit]
    simp only [List.append_assoc]
  · exact List.forall_mem_append.2 ⟨hfront, hbefore⟩
  · exact List.forall_mem_append.2 ⟨hafter, hback⟩

example : trim (utf8 " \t10.0.0.1 ") = utf8 "10.0.0.1" := by decide

/-! ## Lower case -/

/-- The byte, or the lower-case letter of an upper-case letter. -/
def lower (b : UInt8) : UInt8 := if 65 ≤ b ∧ b ≤ 90 then b + 32 else b

theorem toLower_charOf (b : UInt8) : (charOf b).toLower = charOf (lower b) := by
  have hall : ∀ n < 256, (charOf (UInt8.ofNat n)).toLower = charOf (lower (UInt8.ofNat n)) := by
    decide +kernel
  have hbyte := hall b.toNat b.toNat_lt
  rwa [UInt8.ofNat_toNat] at hbyte

end RateGate
