/-!
# Text as bytes

Field values and the keys of identifiers are bytes; names, bodies and messages are text. This
module turns text into its UTF-8 bytes and says which bytes are visible and which are blank.

Numbers are written in decimal. Their text is plain, that is, made of visible ASCII characters
alone (`isPlain_nat`, `isPlain_int`), and plain text has visible bytes only
(`isVisible_of_mem_utf8`).
-/

namespace RateGate

/-- The UTF-8 bytes of a text. -/
def utf8 (s : String) : List UInt8 := s.toList.flatMap String.utf8EncodeChar

/-- A byte that prints in ASCII, the space included. -/
def isVisible (b : UInt8) : Bool := 32 ≤ b && b ≤ 126

def tab : UInt8 := 9

/-- A byte that trimming removes. -/
def isBlank (b : UInt8) : Bool := b == 32 || b == tab

/-- The bytes without the blanks at either end. -/
def trim (bytes : List UInt8) : List UInt8 :=
  ((bytes.dropWhile isBlank).reverse.dropWhile isBlank).reverse

/-- A character that prints in ASCII, the space included. -/
def isPlainChar (c : Char) : Bool := 32 ≤ c.toNat && c.toNat ≤ 126

/-- Text of visible ASCII characters. -/
def isPlain (s : String) : Bool := s.toList.all isPlainChar

@[simp] theorem isPlain_append (s t : String) : isPlain (s ++ t) = (isPlain s && isPlain t) := by
  simp [isPlain, String.toList_append]

theorem isPlainChar_of_isDigit {c : Char} (h : c.isDigit = true) : isPlainChar c = true := by
  simp only [Char.isDigit, Bool.and_eq_true, decide_eq_true_eq, ge_iff_le,
    UInt32.le_iff_toNat_le] at h
  simp only [isPlainChar, Bool.and_eq_true, decide_eq_true_eq, Char.toNat]
  have h₁ : ('0' : Char).val.toNat = 48 := rfl
  have h₂ : ('9' : Char).val.toNat = 57 := rfl
  omega

theorem isPlain_nat (n : Nat) : isPlain (toString n) = true := by
  rw [isPlain, Nat.toString_eq_repr, Nat.toList_repr, List.all_eq_true]
  exact fun c hc => isPlainChar_of_isDigit (Nat.isDigit_of_mem_toDigits (by decide) (by decide) hc)

theorem isPlain_int (n : Int) : isPlain (toString n) = true := by
  cases n with
  | ofNat m => exact isPlain_nat m
  | negSucc m =>
    rw [show toString (Int.negSucc m) = "-" ++ toString (m + 1) from rfl, isPlain_append,
      isPlain_nat]
    rfl

theorem isVisible_of_mem_utf8 {s : String} (h : isPlain s = true) {b : UInt8} (hb : b ∈ utf8 s) :
    isVisible b = true := by
  obtain ⟨c, hc, hbc⟩ := List.mem_flatMap.1 hb
  have hplain := List.all_eq_true.1 h c hc
  simp only [isPlainChar, Bool.and_eq_true, decide_eq_true_eq, Char.toNat] at hplain
  rw [String.utf8EncodeChar] at hbc
  rw [if_pos (by omega), List.mem_singleton] at hbc
  subst hbc
  simp only [isVisible, Bool.and_eq_true, decide_eq_true_eq, UInt8.le_iff_toNat_le,
    UInt8.toNat_ofNat', UInt8.reduceToNat]
  omega

end RateGate
