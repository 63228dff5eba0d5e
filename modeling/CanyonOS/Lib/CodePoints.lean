import Mathlib

/-!
# Strings of code points

Strings in which every code point may stand, surrogates by themselves too, and their encoding in
UTF-8, which those have none.
-/

abbrev CodePoint := Fin 0x110000

abbrev CodePoints := List CodePoint

instance neZero_codePoint : NeZero 0x110000 := ⟨Nat.succ_ne_zero _⟩

instance lawfulBEq_codePoints : LawfulBEq CodePoints := inferInstance

namespace CodePoints

def ofChar (char : Char) : CodePoint :=
  Fin.ofNat 0x110000 char.toNat

def toChar? (codePoint : CodePoint) : Option Char :=
  if h : Nat.isValidChar codePoint then some (Char.ofNatAux codePoint h) else none

def ofString (string : String) : CodePoints :=
  string.toList.map ofChar

/-- The characters of a string without a surrogate by itself. -/
def toChars? (string : CodePoints) : Option (List Char) :=
  string.mapM toChar?

def encodeUtf8? (string : CodePoints) : Option (List UInt8) :=
  (toChars? string).map fun chars => (String.ofList chars).toUTF8.data.toList

def decodeUtf8? (bytes : List UInt8) : Option CodePoints :=
  (ByteArray.mk bytes.toArray).utf8Decode?.map fun chars => chars.toList.map ofChar

theorem toNat_lt (char : Char) : char.toNat < 0x110000 := by
  have hvalid : char.toNat < 0xD800 ∨ 0xDFFF < char.toNat ∧ char.toNat < 0x110000 := char.valid
  omega

@[simp]
theorem toChar?_ofChar (char : Char) : toChar? (ofChar char) = some char := by
  have hvalue : (ofChar char : ℕ) = char.toNat := Nat.mod_eq_of_lt (toNat_lt char)
  have hvalid : Nat.isValidChar (ofChar char : ℕ) := by
    rw [hvalue]
    exact char.valid
  rw [toChar?, dif_pos hvalid]
  congr 1
  apply Char.ext
  apply UInt32.toNat_inj.mp
  exact hvalue

theorem ofChar_of_toChar? {codePoint : CodePoint} {char : Char}
    (hchar : toChar? codePoint = some char) : ofChar char = codePoint := by
  unfold toChar? at hchar
  split at hchar
  case isTrue hvalid =>
    cases hchar
    apply Fin.ext
    change (codePoint : ℕ) % 0x110000 = codePoint
    exact Nat.mod_eq_of_lt codePoint.isLt
  case isFalse => cases hchar

theorem toChars?_ofString (string : String) : toChars? (ofString string) = some string.toList := by
  unfold toChars? ofString
  induction string.toList with
  | nil => rfl
  | cons char chars ih =>
      rw [List.map_cons, List.mapM_cons, toChar?_ofChar, ih]
      rfl

theorem ofString_inj {first second : String} :
    ofString first = ofString second ↔ first = second := by
  constructor
  · intro heq
    have hchars := toChars?_ofString first
    rw [heq, toChars?_ofString second] at hchars
    exact (String.toList_inj.mp (Option.some.inj hchars)).symm
  · exact congrArg ofString

theorem map_ofChar_of_toChars? {string : CodePoints} {chars : List Char}
    (hchars : toChars? string = some chars) : chars.map ofChar = string := by
  unfold toChars? at hchars
  induction string generalizing chars with
  | nil =>
      cases hchars
      rfl
  | cons codePoint string ih =>
      rw [List.mapM_cons] at hchars
      simp only [Option.bind_eq_bind, Option.bind_eq_some_iff] at hchars
      obtain ⟨char, hchar, rest, hrest, heq⟩ := hchars
      cases heq
      rw [List.map_cons, ofChar_of_toChar? hchar, ih hrest]

/-- What was encoded decodes to itself. -/
theorem decodeUtf8?_of_encodeUtf8? {string : CodePoints} {bytes : List UInt8}
    (hencode : encodeUtf8? string = some bytes) : decodeUtf8? bytes = some string := by
  obtain ⟨chars, hchars, rfl⟩ := Option.map_eq_some_iff.mp hencode
  have hbytes : ByteArray.mk (String.ofList chars).toUTF8.data.toList.toArray =
      chars.utf8Encode := by
    rw [Array.toArray_toList]
    exact String.toByteArray_ofList
  rw [decodeUtf8?, hbytes, List.utf8Decode?_utf8Encode, Option.map_some, List.toList_toArray,
    map_ofChar_of_toChars? hchars]

/-- A string of ASCII is encoded with one byte for each character. -/
theorem encodeUtf8?_of_ascii {string : CodePoints} (hascii : ∀ char ∈ string, char.val < 0x80) :
    ∃ bytes, encodeUtf8? string = some bytes ∧ bytes.length = string.length := by
  suffices h : ∃ chars, toChars? string = some chars ∧
      chars.utf8Encode.size = string.length by
    obtain ⟨chars, hchars, hlength⟩ := h
    refine ⟨_, congrArg _ hchars, ?_⟩
    rw [← hlength]
    simp
  induction string with
  | nil => exact ⟨[], rfl, rfl⟩
  | cons codePoint string ih =>
      obtain ⟨hhead, htail⟩ := List.forall_mem_cons.mp hascii
      obtain ⟨chars, hchars, hlength⟩ := ih htail
      have hvalid : Nat.isValidChar codePoint := Or.inl (by omega)
      refine ⟨Char.ofNatAux codePoint hvalid :: chars, ?_, ?_⟩
      · unfold toChars? at hchars ⊢
        rw [List.mapM_cons, hchars, toChar?, dif_pos hvalid]
        rfl
      · have hsize : (Char.ofNatAux codePoint hvalid).utf8Size = 1 := by
          apply Char.utf8Size_eq_one_iff.mpr
          apply UInt32.le_iff_toNat_le.mpr
          exact Nat.le_of_lt_succ hhead
        rw [List.utf8Encode_cons, List.utf8Encode_singleton, ByteArray.size_append,
          List.size_toByteArray, String.length_utf8EncodeChar, hsize, hlength, List.length_cons,
          Nat.add_comm]

end CodePoints
