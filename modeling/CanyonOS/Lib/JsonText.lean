import Mathlib

/-!
# JSON text

The values of a language whose strings are UTF-16 code units, their equality up to the order of
keys, and the text `JSON.stringify` gives a value: two values with the same text are the same to
JSON, the order of keys included.
-/

abbrev CodeUnit := Fin 0x10000

abbrev CodeUnits := List CodeUnit

instance neZero_codeUnit : NeZero 0x10000 := ⟨Nat.succ_ne_zero _⟩

/-- A value; a number that is not finite is `none`. -/
inductive JsValue where
  | null
  | bool (value : Bool)
  | number (value : Option ℚ)
  | string (text : CodeUnits)
  | array (items : List JsValue)
  | object (entries : List (CodeUnits × JsValue))

abbrev JsEntry := CodeUnits × JsValue

namespace JsValue

open scoped List

mutual

/-- What holds of the members holds of every value. -/
theorem induct {motive : JsValue → Prop} (null : motive .null)
    (bool : ∀ value, motive (.bool value)) (number : ∀ value, motive (.number value))
    (string : ∀ text, motive (.string text))
    (array : ∀ items, (∀ item ∈ items, motive item) → motive (.array items))
    (object : ∀ entries : List JsEntry, (∀ entry ∈ entries, motive entry.2) →
      motive (.object entries)) : ∀ value, motive value
  | .null => null
  | .bool value => bool value
  | .number value => number value
  | .string text => string text
  | .array items => array items (inductItems null bool number string array object items)
  | .object entries => object entries (inductEntries null bool number string array object entries)

theorem inductItems {motive : JsValue → Prop} (null : motive .null)
    (bool : ∀ value, motive (.bool value)) (number : ∀ value, motive (.number value))
    (string : ∀ text, motive (.string text))
    (array : ∀ items, (∀ item ∈ items, motive item) → motive (.array items))
    (object : ∀ entries : List JsEntry, (∀ entry ∈ entries, motive entry.2) →
      motive (.object entries)) : ∀ items : List JsValue, ∀ item ∈ items, motive item
  | [] => List.forall_mem_nil _
  | item :: items => List.forall_mem_cons.mpr
      ⟨induct null bool number string array object item,
        inductItems null bool number string array object items⟩

theorem inductEntries {motive : JsValue → Prop} (null : motive .null)
    (bool : ∀ value, motive (.bool value)) (number : ∀ value, motive (.number value))
    (string : ∀ text, motive (.string text))
    (array : ∀ items, (∀ item ∈ items, motive item) → motive (.array items))
    (object : ∀ entries : List JsEntry, (∀ entry ∈ entries, motive entry.2) →
      motive (.object entries)) : ∀ entries : List JsEntry, ∀ entry ∈ entries, motive entry.2
  | [] => List.forall_mem_nil _
  | (_, value) :: entries => List.forall_mem_cons.mpr
      ⟨induct null bool number string array object value,
        inductEntries null bool number string array object entries⟩

end

/-! ### Keys -/

/-- No object has a key twice. -/
inductive DistinctKeys : JsValue → Prop where
  | null : DistinctKeys null
  | bool (value : Bool) : DistinctKeys (bool value)
  | number (value : Option ℚ) : DistinctKeys (number value)
  | string (text : CodeUnits) : DistinctKeys (string text)
  | array {items : List JsValue} : (∀ item ∈ items, DistinctKeys item) → DistinctKeys (array items)
  | object {entries : List JsEntry} : (entries.map Prod.fst).Nodup →
      (∀ entry ∈ entries, DistinctKeys entry.2) → DistinctKeys (object entries)

/-- Equal up to the order of keys, at any depth. -/
inductive SameUpToKeys : JsValue → JsValue → Prop where
  | refl (value : JsValue) : SameUpToKeys value value
  | symm {value other : JsValue} : SameUpToKeys value other → SameUpToKeys other value
  | trans {value middle other : JsValue} :
      SameUpToKeys value middle → SameUpToKeys middle other → SameUpToKeys value other
  | item {before after : List JsValue} {value other : JsValue} : SameUpToKeys value other →
      SameUpToKeys (array (before ++ value :: after)) (array (before ++ other :: after))
  | entry {before after : List JsEntry} {key : CodeUnits} {value other : JsValue} :
      SameUpToKeys value other → SameUpToKeys (object (before ++ (key, value) :: after))
        (object (before ++ (key, other) :: after))
  | permute {entries others : List JsEntry} : entries ~ others →
      SameUpToKeys (object entries) (object others)

namespace SameUpToKeys

theorem array_map {f : JsValue → JsValue} (before : List JsValue) {items : List JsValue}
    (hitems : ∀ item ∈ items, SameUpToKeys item (f item)) :
    SameUpToKeys (array (before ++ items)) (array (before ++ items.map f)) := by
  induction items generalizing before with
  | nil => exact refl _
  | cons item items ih =>
      obtain ⟨hitem, hitems⟩ := List.forall_mem_cons.mp hitems
      have hrest := ih (before ++ [f item]) hitems
      rw [List.append_assoc, List.append_assoc] at hrest
      exact (SameUpToKeys.item hitem).trans hrest

theorem object_map {f : JsValue → JsValue} (before : List JsEntry) {entries : List JsEntry}
    (hentries : ∀ entry ∈ entries, SameUpToKeys entry.2 (f entry.2)) :
    SameUpToKeys (object (before ++ entries))
      (object (before ++ entries.map (Prod.map id f))) := by
  induction entries generalizing before with
  | nil => exact refl _
  | cons entry entries ih =>
      obtain ⟨hentry, hentries⟩ := List.forall_mem_cons.mp hentries
      have hrest := ih (before ++ [Prod.map id f entry]) hentries
      rw [List.append_assoc, List.append_assoc] at hrest
      exact (SameUpToKeys.entry hentry).trans hrest

theorem forall_mem_middle {α : Type*} {property : α → Prop} {before after : List α} {item : α} :
    (∀ other ∈ before ++ item :: after, property other) ↔
      property item ∧ (∀ other ∈ before, property other) ∧ ∀ other ∈ after, property other := by
  rw [List.forall_mem_append, List.forall_mem_cons]
  exact and_left_comm

/-- The order of keys does not matter to whether they are distinct. -/
theorem distinctKeys_iff {value other : JsValue} (hsame : SameUpToKeys value other) :
    value.DistinctKeys ↔ other.DistinctKeys := by
  induction hsame with
  | refl => rfl
  | symm _ ih => exact ih.symm
  | trans _ _ ih₁ ih₂ => exact ih₁.trans ih₂
  | item _ ih =>
      constructor
      · rintro (_ | _ | _ | _ | hitems | _)
        rw [forall_mem_middle] at hitems
        exact .array (forall_mem_middle.mpr ⟨ih.mp hitems.1, hitems.2⟩)
      · rintro (_ | _ | _ | _ | hitems | _)
        rw [forall_mem_middle] at hitems
        exact .array (forall_mem_middle.mpr ⟨ih.mpr hitems.1, hitems.2⟩)
  | entry _ ih =>
      constructor
      · rintro (_ | _ | _ | _ | _ | ⟨hnodup, hentries⟩)
        rw [forall_mem_middle] at hentries
        refine .object ?_ (forall_mem_middle.mpr ⟨ih.mp hentries.1, hentries.2⟩)
        rw [List.map_append, List.map_cons] at hnodup ⊢
        exact hnodup
      · rintro (_ | _ | _ | _ | _ | ⟨hnodup, hentries⟩)
        rw [forall_mem_middle] at hentries
        refine .object ?_ (forall_mem_middle.mpr ⟨ih.mpr hentries.1, hentries.2⟩)
        rw [List.map_append, List.map_cons] at hnodup ⊢
        exact hnodup
  | permute hperm =>
      constructor
      · rintro (_ | _ | _ | _ | _ | ⟨hnodup, hentries⟩)
        exact .object ((hperm.map Prod.fst).nodup_iff.mp hnodup) fun entry hentry =>
          hentries entry (hperm.mem_iff.mpr hentry)
      · rintro (_ | _ | _ | _ | _ | ⟨hnodup, hentries⟩)
        exact .object ((hperm.map Prod.fst).nodup_iff.mpr hnodup) fun entry hentry =>
          hentries entry (hperm.mem_iff.mp hentry)

end SameUpToKeys

/-! ### Texts of strings -/

def ascii (text : String) : CodeUnits :=
  text.toList.map fun char => Fin.ofNat 0x10000 char.toNat

def quotationMark : CodeUnit := 0x22

def backslash : CodeUnit := 0x5C

def comma : CodeUnit := 0x2C

def letterU : CodeUnit := 0x75

def IsHighSurrogate (unit : CodeUnit) : Prop :=
  0xD800 ≤ unit.val ∧ unit.val < 0xDC00

def IsLowSurrogate (unit : CodeUnit) : Prop :=
  0xDC00 ≤ unit.val ∧ unit.val < 0xE000

instance decidableHighSurrogate : DecidablePred IsHighSurrogate :=
  fun _ => inferInstanceAs (Decidable (_ ∧ _))

instance decidableLowSurrogate : DecidablePred IsLowSurrogate :=
  fun _ => inferInstanceAs (Decidable (_ ∧ _))

def hexDigit (value : ℕ) : CodeUnit :=
  Fin.ofNat 0x10000 (if value < 10 then 48 + value else 87 + value)

def hexValue (digit : CodeUnit) : ℕ :=
  if digit.val < 58 then digit.val - 48 else digit.val - 87

/-- The escapes of one letter: the letter, and the code unit it stands for. -/
def shortEscapes : List (CodeUnit × CodeUnit) :=
  [(quotationMark, quotationMark), (backslash, backslash), (0x62, 8), (0x74, 9), (0x6E, 10),
    (0x66, 12), (0x72, 13)]

/-- A code unit as it is escaped outside a surrogate pair. -/
def escape (unit : CodeUnit) : CodeUnits :=
  match shortEscapes.find? (·.2 = unit) with
  | some (letter, _) => [backslash, letter]
  | none =>
      if unit.val < 0x20 ∨ IsHighSurrogate unit ∨ IsLowSurrogate unit then
        [backslash, letterU, hexDigit (unit.val / 4096), hexDigit (unit.val / 256 % 16),
          hexDigit (unit.val / 16 % 16), hexDigit (unit.val % 16)]
      else [unit]

/-- The rest of a string, after the first half of a surrogate pair or not: the pair stands as it
is. -/
def escapeFrom (paired : Bool) : CodeUnits → CodeUnits
  | [] => []
  | unit :: units =>
      if paired then unit :: escapeFrom false units
      else if IsHighSurrogate unit ∧ ∃ low ∈ units.head?, IsLowSurrogate low then
        unit :: escapeFrom true units
      else escape unit ++ escapeFrom false units

def quote (text : CodeUnits) : CodeUnits :=
  quotationMark :: (escapeFrom false text ++ [quotationMark])

def readHex : CodeUnits → Option (CodeUnit × CodeUnits)
  | first :: second :: third :: fourth :: rest =>
      some (Fin.ofNat 0x10000 (hexValue first * 4096 + hexValue second * 256 +
        hexValue third * 16 + hexValue fourth), rest)
  | _ => none

def readEscape : CodeUnits → Option (CodeUnit × CodeUnits)
  | [] => none
  | letter :: rest =>
      if letter = letterU then readHex rest
      else (shortEscapes.find? (·.1 = letter)).map fun found => (found.2, rest)

/-- The code unit a text begins with, escaped or not, and what follows. -/
def readUnit : CodeUnits → Option (CodeUnit × CodeUnits)
  | [] => none
  | unit :: rest =>
      if unit = quotationMark then none
      else if unit = backslash then readEscape rest
      else some (unit, rest)

theorem hexValue_hexDigit {value : ℕ} (hvalue : value < 16) :
    hexValue (hexDigit value) = value := by
  unfold hexDigit
  split
  case isTrue hsmall =>
    have hval : (Fin.ofNat 0x10000 (48 + value)).val = 48 + value := Nat.mod_eq_of_lt (by omega)
    rw [hexValue, hval, if_pos (by omega)]
    omega
  case isFalse hlarge =>
    have hval : (Fin.ofNat 0x10000 (87 + value)).val = 87 + value := Nat.mod_eq_of_lt (by omega)
    rw [hexValue, hval, if_neg (by omega)]
    omega

theorem hexValue_digits (unit : CodeUnit) :
    Fin.ofNat 0x10000 (hexValue (hexDigit (unit.val / 4096)) * 4096 +
      hexValue (hexDigit (unit.val / 256 % 16)) * 256 +
      hexValue (hexDigit (unit.val / 16 % 16)) * 16 + hexValue (hexDigit (unit.val % 16))) =
      unit := by
  have hunit := unit.isLt
  rw [hexValue_hexDigit (by omega), hexValue_hexDigit (by omega), hexValue_hexDigit (by omega),
    hexValue_hexDigit (by omega)]
  apply Fin.ext
  change (unit.val / 4096 * 4096 + unit.val / 256 % 16 * 256 + unit.val / 16 % 16 * 16 +
    unit.val % 16) % 0x10000 = unit.val
  omega

/-- A letter of a short escape is read as the code unit it was written for. -/
theorem find?_shortEscapes : ∀ found ∈ shortEscapes,
    found.1 ≠ letterU ∧ shortEscapes.find? (·.1 = found.1) = some found := by
  intro found hfound
  fin_cases hfound <;> exact ⟨Fin.ne_of_val_ne (by decide), rfl⟩

theorem readUnit_self {unit : CodeUnit} (hquotation : unit ≠ quotationMark)
    (hbackslash : unit ≠ backslash) (rest : CodeUnits) :
    readUnit (unit :: rest) = some (unit, rest) := by
  rw [readUnit, if_neg hquotation, if_neg hbackslash]

theorem readUnit_backslash (rest : CodeUnits) :
    readUnit (backslash :: rest) = readEscape rest := by
  have hbackslash : backslash ≠ quotationMark := by decide
  rw [readUnit, if_neg hbackslash, if_pos rfl]

theorem readUnit_quotationMark (rest : CodeUnits) : readUnit (quotationMark :: rest) = none := by
  rw [readUnit, if_pos rfl]

theorem readUnit_escape (unit : CodeUnit) (rest : CodeUnits) :
    readUnit (escape unit ++ rest) = some (unit, rest) := by
  unfold escape
  cases hfind : shortEscapes.find? (·.2 = unit) with
  | some found =>
      have hunit := List.find?_some hfind
      obtain ⟨hletter, hread⟩ := find?_shortEscapes found (List.mem_of_find?_eq_some hfind)
      change readUnit (backslash :: found.1 :: rest) = _
      rw [readUnit_backslash, readEscape, if_neg hletter, hread, Option.map_some,
        of_decide_eq_true hunit]
  | none =>
      dsimp only
      split
      · change readUnit (backslash :: letterU :: _ :: _ :: _ :: _ :: rest) = _
        rw [readUnit_backslash, readEscape, if_pos rfl, readHex, hexValue_digits]
      · have hne : ∀ found ∈ shortEscapes, found.2 ≠ unit := by
          intro found hfound
          exact of_decide_eq_false (Bool.eq_false_iff.mpr (List.find?_eq_none.mp hfind found hfound))
        exact readUnit_self (hne (quotationMark, quotationMark) (by decide)).symm
          (hne (backslash, backslash) (by decide)).symm rest

/-- Each code unit of a string is read back, whichever way it was written. -/
theorem readUnit_escapeFrom {paired : Bool} {unit : CodeUnit} (units rest : CodeUnits)
    (hpaired : paired = true → IsLowSurrogate unit) :
    ∃ next : Bool, (next = true → ∃ low ∈ units.head?, IsLowSurrogate low) ∧
      readUnit (escapeFrom paired (unit :: units) ++ rest) =
        some (unit, escapeFrom next units ++ rest) := by
  have hraw : ∀ {text : CodeUnits}, 0xD800 ≤ unit.val →
      readUnit (unit :: text) = some (unit, text) := by
    intro text hunit
    refine readUnit_self ?_ ?_ text
    · rintro rfl
      exact absurd hunit (by decide)
    · rintro rfl
      exact absurd hunit (by decide)
  rw [escapeFrom]
  split
  case isTrue h =>
    refine ⟨false, fun hnext => (by cases hnext), ?_⟩
    exact hraw (Nat.le_trans (by decide) (hpaired h).1)
  case isFalse =>
    split
    case isTrue h => exact ⟨true, fun _ => h.2, hraw h.1.1⟩
    case isFalse =>
      refine ⟨false, fun hnext => (by cases hnext), ?_⟩
      rw [List.append_assoc]
      exact readUnit_escape unit _

theorem escapeFrom_inj {text other rest after : CodeUnits} {paired otherPaired : Bool}
    (hpaired : paired = true → ∃ low ∈ text.head?, IsLowSurrogate low)
    (hother : otherPaired = true → ∃ low ∈ other.head?, IsLowSurrogate low)
    (heq : escapeFrom paired text ++ quotationMark :: rest =
      escapeFrom otherPaired other ++ quotationMark :: after) : text = other ∧ rest = after := by
  have hhead : ∀ {paired : Bool} {unit : CodeUnit} {units : CodeUnits},
      (paired = true → ∃ low ∈ (unit :: units).head?, IsLowSurrogate low) →
      paired = true → IsLowSurrogate unit := by
    intro paired unit units h hpaired
    obtain ⟨low, hlow, hsurrogate⟩ := h hpaired
    cases hlow
    exact hsurrogate
  have hread := congrArg readUnit heq
  induction text generalizing other paired otherPaired with
  | nil =>
      cases other with
      | nil => exact ⟨rfl, (List.cons.inj heq).2⟩
      | cons unit units =>
          obtain ⟨next, -, hunit⟩ := readUnit_escapeFrom units (quotationMark :: after)
            (hhead hother)
          rw [hunit] at hread
          exact absurd ((readUnit_quotationMark rest).symm.trans hread) (by simp)
  | cons unit units ih =>
      obtain ⟨next, hnext, hunit⟩ := readUnit_escapeFrom units (quotationMark :: rest)
        (hhead hpaired)
      rw [hunit] at hread
      cases other with
      | nil => exact absurd (hread.trans (readUnit_quotationMark after)) (by simp)
      | cons otherUnit others =>
          obtain ⟨otherNext, hotherNext, hotherUnit⟩ := readUnit_escapeFrom others
            (quotationMark :: after) (hhead hother)
          rw [hotherUnit, Option.some.injEq, Prod.mk.injEq] at hread
          obtain ⟨rfl, htail⟩ := hread
          obtain ⟨hunits, hrest⟩ := ih hnext hotherNext htail (congrArg readUnit htail)
          exact ⟨congrArg _ hunits, hrest⟩

/-- A quoted string tells where it ends. -/
theorem quote_append_inj {text other rest after : CodeUnits}
    (heq : quote text ++ rest = quote other ++ after) : text = other ∧ rest = after := by
  have htail : escapeFrom false text ++ quotationMark :: rest =
      escapeFrom false other ++ quotationMark :: after := by
    simpa [quote] using heq
  exact escapeFrom_inj Bool.false_ne_true.elim Bool.false_ne_true.elim htail

/-! ### Texts of values -/

def colon : CodeUnit := 0x3A

def openBracket : CodeUnit := 0x5B

def closeBracket : CodeUnit := 0x5D

def openBrace : CodeUnit := 0x7B

def closeBrace : CodeUnit := 0x7D

def commaSeparated : List CodeUnits → CodeUnits
  | [] => []
  | text :: texts => text ++ texts.flatMap (comma :: ·)

/-- The units of a number's text: digits, signs, the point and the exponent's letter. -/
def IsNumberUnit (unit : CodeUnit) : Prop :=
  48 ≤ unit.val ∧ unit.val < 58 ∨ unit.val = 43 ∨ unit.val = 45 ∨ unit.val = 46 ∨ unit.val = 101

instance decidableNumberUnit : DecidablePred IsNumberUnit :=
  fun _ => inferInstanceAs (Decidable (_ ∧ _ ∨ _))

/-- The texts of finite numbers read back as the numbers. -/
structure NumberTexts (numberText : ℚ → CodeUnits) : Prop where
  injective : Function.Injective numberText
  nonempty : ∀ value, numberText value ≠ []
  units : ∀ value, ∀ unit ∈ numberText value, IsNumberUnit unit

section Stringify

variable (numberText : ℚ → CodeUnits)

mutual

def stringify : JsValue → CodeUnits
  | null => ascii "null"
  | bool true => ascii "true"
  | bool false => ascii "false"
  | number none => ascii "null"
  | number (some value) => numberText value
  | string text => quote text
  | array items => openBracket :: (commaSeparated (stringifyItems items) ++ [closeBracket])
  | object entries => openBrace :: (commaSeparated (stringifyEntries entries) ++ [closeBrace])

def stringifyItems : List JsValue → List CodeUnits
  | [] => []
  | item :: items => stringify item :: stringifyItems items

def stringifyEntries : List JsEntry → List CodeUnits
  | [] => []
  | (key, value) :: entries => (quote key ++ colon :: stringify value) :: stringifyEntries entries

end

def stringifyEntry (entry : JsEntry) : CodeUnits :=
  quote entry.1 ++ colon :: stringify numberText entry.2

theorem stringifyItems_eq (items : List JsValue) :
    stringifyItems numberText items = items.map (stringify numberText) := by
  induction items with
  | nil => rfl
  | cons item items ih => rw [stringifyItems, ih, List.map_cons]

theorem stringifyEntries_eq (entries : List JsEntry) :
    stringifyEntries numberText entries = entries.map (stringifyEntry numberText) := by
  induction entries with
  | nil => rfl
  | cons entry entries ih => rw [stringifyEntries, ih, List.map_cons, stringifyEntry]

end Stringify

mutual

/-- The value its text stands for: a number that is not finite is written as `null`. -/
def stored : JsValue → JsValue
  | null => null
  | bool value => bool value
  | number none => null
  | number (some value) => number (some value)
  | string text => string text
  | array items => array (storedItems items)
  | object entries => object (storedEntries entries)

def storedItems : List JsValue → List JsValue
  | [] => []
  | item :: items => stored item :: storedItems items

def storedEntries : List JsEntry → List JsEntry
  | [] => []
  | (key, value) :: entries => (key, stored value) :: storedEntries entries

end

theorem storedItems_eq (items : List JsValue) : storedItems items = items.map stored := by
  induction items with
  | nil => rfl
  | cons item items ih => rw [storedItems, ih, List.map_cons]

theorem storedEntries_eq (entries : List JsEntry) :
    storedEntries entries = entries.map (Prod.map id stored) := by
  induction entries with
  | nil => rfl
  | cons entry entries ih => rw [storedEntries, ih, List.map_cons, Prod.map, id]

theorem distinctKeys_stored {value : JsValue} (hvalue : value.DistinctKeys) :
    value.stored.DistinctKeys := by
  induction hvalue with
  | null => exact .null
  | bool value => exact .bool value
  | number value =>
      cases value with
      | none => exact .null
      | some value => exact .number _
  | string text => exact .string text
  | array _ ih =>
      rw [stored, storedItems_eq]
      exact .array (List.forall_mem_map.mpr ih)
  | object hnodup _ ih =>
      rw [stored, storedEntries_eq]
      refine .object ?_ (List.forall_mem_map.mpr ih)
      rw [List.map_map]
      exact hnodup

/-! ### Reading a text back -/

/-- What may follow a value in a text. -/
def EndsValue (rest : CodeUnits) : Prop :=
  ∀ unit ∈ rest.head?, unit = comma ∨ unit = closeBracket ∨ unit = closeBrace

/-- The kinds of values that the first unit of a text tells apart. -/
inductive Kind where
  | null
  | bool (value : Bool)
  | number
  | string
  | array
  | object

def kind : JsValue → Kind
  | null => .null
  | bool value => .bool value
  | number none => .null
  | number (some _) => .number
  | string _ => .string
  | array _ => .array
  | object _ => .object

def kindOf (unit : CodeUnit) : Option Kind :=
  if IsNumberUnit unit then some .number
  else if unit.val = 0x6E then some .null
  else if unit.val = 0x74 then some (.bool true)
  else if unit.val = 0x66 then some (.bool false)
  else if unit = quotationMark then some .string
  else if unit = openBracket then some .array
  else if unit = openBrace then some .object
  else none

section Reading

variable {numberText : ℚ → CodeUnits} (hnumbers : NumberTexts numberText)
include hnumbers

theorem exists_stringify_eq_cons (value : JsValue) :
    ∃ head tail, stringify numberText value = head :: tail ∧ kindOf head = some value.kind := by
  match value with
  | null => exact ⟨0x6E, ascii "ull", rfl, rfl⟩
  | bool true => exact ⟨0x74, ascii "rue", rfl, rfl⟩
  | bool false => exact ⟨0x66, ascii "alse", rfl, rfl⟩
  | number none => exact ⟨0x6E, ascii "ull", rfl, rfl⟩
  | number (some value) =>
      obtain ⟨head, tail, htext⟩ := List.exists_cons_of_ne_nil (hnumbers.nonempty value)
      refine ⟨head, tail, htext, if_pos ?_⟩
      exact hnumbers.units value head (htext ▸ List.mem_cons_self)
  | string text => exact ⟨quotationMark, _, rfl, rfl⟩
  | array items => exact ⟨openBracket, _, rfl, rfl⟩
  | object entries => exact ⟨openBrace, _, rfl, rfl⟩

theorem kind_eq_of_stringify_append {value other : JsValue} {rest after : CodeUnits}
    (heq : stringify numberText value ++ rest = stringify numberText other ++ after) :
    value.kind = other.kind := by
  obtain ⟨head, tail, htext, hkind⟩ := exists_stringify_eq_cons hnumbers value
  obtain ⟨otherHead, otherTail, hotherText, hotherKind⟩ := exists_stringify_eq_cons hnumbers other
  rw [htext, hotherText] at heq
  rw [(List.cons.inj heq).1, hotherKind] at hkind
  exact (Option.some.inj hkind).symm

omit hnumbers

theorem not_isNumberUnit_of_endsValue {rest : CodeUnits} (hrest : EndsValue rest) :
    ∀ unit ∈ rest.head?, ¬ IsNumberUnit unit := by
  intro unit hunit
  rcases hrest unit hunit with rfl | rfl | rfl <;> decide

include hnumbers

theorem numberText_append_inj {value other : ℚ} {rest after : CodeUnits} (hrest : EndsValue rest)
    (hafter : EndsValue after) (heq : numberText value ++ rest = numberText other ++ after) :
    value = other ∧ rest = after := by
  have htake : ∀ {value : ℚ} {rest : CodeUnits}, EndsValue rest →
      (numberText value ++ rest).takeWhile (IsNumberUnit ·) = numberText value := by
    intro value rest hrest
    rw [List.takeWhile_append_of_pos fun unit hunit =>
      decide_eq_true (hnumbers.units value unit hunit)]
    cases rest with
    | nil => simp
    | cons unit rest =>
        rw [List.takeWhile_cons_of_neg, List.append_nil]
        exact fun h => not_isNumberUnit_of_endsValue hrest unit rfl (of_decide_eq_true h)
  have htext : numberText value = numberText other := by
    rw [← htake hrest, heq, htake hafter]
  exact ⟨hnumbers.injective htext, List.append_cancel_left (htext ▸ heq)⟩

end Reading

/-- A writer of values or entries whose texts tell where they end. -/
def Readable {α β : Type*} (write : α → CodeUnits) (read : α → β) (item : α) : Prop :=
  ∀ other rest after, EndsValue rest → EndsValue after →
    write item ++ rest = write other ++ after → read item = read other ∧ rest = after

section Separated

variable {α β : Type*} {write : α → CodeUnits} {read : α → β} {close : CodeUnit}
  (hclose : close = closeBracket ∨ close = closeBrace)
include hclose

theorem endsValue_flatMap (items : List α) (rest : CodeUnits) :
    EndsValue (items.flatMap (fun item => comma :: write item) ++ close :: rest) := by
  intro unit hunit
  cases items with
  | nil =>
      cases hunit
      exact Or.inr hclose
  | cons => exact Or.inl (Option.some.inj hunit).symm

theorem flatMap_inj {items others : List α} {rest after : CodeUnits}
    (hitems : ∀ item ∈ items, Readable write read item)
    (heq : items.flatMap (fun item => comma :: write item) ++ close :: rest =
      others.flatMap (fun item => comma :: write item) ++ close :: after) :
    items.map read = others.map read ∧ rest = after := by
  have hne : close ≠ comma := by
    rcases hclose with rfl | rfl <;> exact Fin.ne_of_val_ne (by decide)
  induction items generalizing others with
  | nil =>
      cases others with
      | nil => exact ⟨rfl, (List.cons.inj heq).2⟩
      | cons other others => exact absurd (List.cons.inj heq).1 hne
  | cons item items ih =>
      obtain ⟨hitem, hitems⟩ := List.forall_mem_cons.mp hitems
      cases others with
      | nil => exact absurd (List.cons.inj heq).1.symm hne
      | cons other others =>
          rw [List.flatMap_cons, List.flatMap_cons, List.append_assoc, List.append_assoc] at heq
          obtain ⟨hread, hrest⟩ := hitem other _ _ (endsValue_flatMap hclose items rest)
            (endsValue_flatMap hclose others after) (List.cons.inj heq).2
          obtain ⟨hreads, hend⟩ := ih hitems hrest
          exact ⟨by rw [List.map_cons, List.map_cons, hread, hreads], hend⟩

/-- A list of items between brackets tells its items and where it ends. -/
theorem commaSeparated_inj {items others : List α} {rest after : CodeUnits}
    (hitems : ∀ item ∈ items, Readable write read item)
    (hhead : ∀ item, ∃ head tail, write item = head :: tail ∧ head ≠ close)
    (heq : commaSeparated (items.map write) ++ close :: rest =
      commaSeparated (others.map write) ++ close :: after) :
    items.map read = others.map read ∧ rest = after := by
  have hstart : ∀ {item : α} {text rest : CodeUnits}, close :: rest ≠ write item ++ text := by
    intro item text rest h
    obtain ⟨head, tail, htext, hne⟩ := hhead item
    rw [htext] at h
    exact hne (List.cons.inj h).1.symm
  cases items with
  | nil =>
      cases others with
      | nil => exact ⟨rfl, (List.cons.inj heq).2⟩
      | cons other others =>
          rw [List.map_cons, commaSeparated, List.append_assoc] at heq
          exact absurd heq hstart
  | cons item items =>
      obtain ⟨hitem, hitems⟩ := List.forall_mem_cons.mp hitems
      cases others with
      | nil =>
          rw [List.map_cons, commaSeparated, List.append_assoc] at heq
          exact absurd heq.symm hstart
      | cons other others =>
          rw [List.map_cons, List.map_cons, commaSeparated, commaSeparated, List.append_assoc,
            List.append_assoc, List.flatMap_map, List.flatMap_map] at heq
          obtain ⟨hread, hrest⟩ := hitem other _ _ (endsValue_flatMap hclose items rest)
            (endsValue_flatMap hclose others after) heq
          obtain ⟨hreads, hend⟩ := flatMap_inj hclose hitems hrest
          exact ⟨by rw [List.map_cons, List.map_cons, hread, hreads], hend⟩

end Separated

section Reading

variable {numberText : ℚ → CodeUnits} (hnumbers : NumberTexts numberText)
include hnumbers

theorem exists_stringify_ne_close {close : CodeUnit}
    (hclose : close = closeBracket ∨ close = closeBrace) (value : JsValue) :
    ∃ head tail, stringify numberText value = head :: tail ∧ head ≠ close := by
  obtain ⟨head, tail, htext, hkind⟩ := exists_stringify_eq_cons hnumbers value
  refine ⟨head, tail, htext, ?_⟩
  rintro rfl
  rcases hclose with rfl | rfl <;> cases hkind

omit hnumbers in
theorem readable_entry {entry : JsEntry}
    (hvalue : Readable (stringify numberText) stored entry.2) :
    Readable (stringifyEntry numberText) (Prod.map id stored) entry := by
  intro other rest after hrest hafter heq
  unfold stringifyEntry at heq
  rw [List.append_assoc, List.append_assoc] at heq
  obtain ⟨hkey, htail⟩ := quote_append_inj heq
  obtain ⟨hstored, hend⟩ := hvalue other.2 rest after hrest hafter (List.cons.inj htail).2
  exact ⟨Prod.ext hkey hstored, hend⟩

/-- The text of a value tells the value, up to numbers that are not finite, and where it ends. -/
theorem readable_stringify (value : JsValue) : Readable (stringify numberText) stored value := by
  induction value using induct with
  | null =>
      intro other rest after _ _ heq
      have hkind := kind_eq_of_stringify_append hnumbers heq
      match other with
      | null => exact ⟨rfl, List.append_cancel_left heq⟩
      | number none => exact ⟨rfl, List.append_cancel_left heq⟩
      | bool _ | number (some _) | string _ | array _ | object _ => cases hkind
  | bool value =>
      intro other rest after _ _ heq
      have hkind := kind_eq_of_stringify_append hnumbers heq
      match other with
      | bool other =>
          cases hkind
          exact ⟨rfl, List.append_cancel_left heq⟩
      | null | number none | number (some _) | string _ | array _ | object _ => cases hkind
  | number value =>
      intro other rest after hrest hafter heq
      have hkind := kind_eq_of_stringify_append hnumbers heq
      match value, other with
      | none, null => exact ⟨rfl, List.append_cancel_left heq⟩
      | none, number none => exact ⟨rfl, List.append_cancel_left heq⟩
      | none, bool _ | none, number (some _) | none, string _ | none, array _ | none, object _ =>
          cases hkind
      | some value, number (some other) =>
          obtain ⟨rfl, hend⟩ := numberText_append_inj hnumbers hrest hafter heq
          exact ⟨rfl, hend⟩
      | some _, null | some _, number none | some _, bool _ | some _, string _ | some _, array _
      | some _, object _ => cases hkind
  | string text =>
      intro other rest after _ _ heq
      have hkind := kind_eq_of_stringify_append hnumbers heq
      match other with
      | string other =>
          obtain ⟨rfl, hend⟩ := quote_append_inj heq
          exact ⟨rfl, hend⟩
      | null | bool _ | number none | number (some _) | array _ | object _ => cases hkind
  | array items ih =>
      intro other rest after _ _ heq
      have hkind := kind_eq_of_stringify_append hnumbers heq
      match other with
      | array others =>
          have hclose : closeBracket = closeBracket ∨ closeBracket = closeBrace := Or.inl rfl
          have htail := (List.cons.inj heq).2
          rw [List.append_eq, List.append_assoc, List.append_eq, List.append_assoc,
            stringifyItems_eq, stringifyItems_eq] at htail
          obtain ⟨hitems, hend⟩ := commaSeparated_inj hclose ih
            (exists_stringify_ne_close hnumbers hclose) htail
          exact ⟨by rw [stored, stored, storedItems_eq, storedItems_eq, hitems], hend⟩
      | null | bool _ | number none | number (some _) | string _ | object _ => cases hkind
  | object entries ih =>
      intro other rest after _ _ heq
      have hkind := kind_eq_of_stringify_append hnumbers heq
      match other with
      | object others =>
          have hclose : closeBrace = closeBracket ∨ closeBrace = closeBrace := Or.inr rfl
          have hhead : ∀ entry, ∃ head tail,
              stringifyEntry numberText entry = head :: tail ∧ head ≠ closeBrace :=
            fun _ => ⟨quotationMark, _, rfl, Fin.ne_of_val_ne (by decide)⟩
          have htail := (List.cons.inj heq).2
          rw [List.append_eq, List.append_assoc, List.append_eq, List.append_assoc,
            stringifyEntries_eq, stringifyEntries_eq] at htail
          obtain ⟨hentries, hend⟩ := commaSeparated_inj hclose
            (fun entry hentry => readable_entry (ih entry hentry)) hhead htail
          exact ⟨by rw [stored, stored, storedEntries_eq, storedEntries_eq, hentries], hend⟩
      | null | bool _ | number none | number (some _) | string _ | array _ => cases hkind

/-- Two values have the same text only where JSON takes them for the same. -/
theorem stored_eq_of_stringify_eq {value other : JsValue}
    (heq : stringify numberText value = stringify numberText other) :
    value.stored = other.stored := by
  have hempty : EndsValue [] := fun _ h => (by cases h)
  exact (readable_stringify hnumbers value other [] [] hempty hempty (congrArg (· ++ []) heq)).1

omit hnumbers

theorem stringify_stored (value : JsValue) :
    stringify numberText value.stored = stringify numberText value := by
  induction value using induct with
  | null | bool | string => rfl
  | number value => cases value <;> rfl
  | array items ih =>
      have htexts : items.map (stringify numberText ∘ stored) = items.map (stringify numberText) :=
        List.map_congr_left ih
      rw [stored, stringify, stringify, stringifyItems_eq, stringifyItems_eq, storedItems_eq,
        List.map_map, htexts]
  | object entries ih =>
      have htexts : entries.map (stringifyEntry numberText ∘ Prod.map id stored) =
          entries.map (stringifyEntry numberText) := by
        apply List.map_congr_left
        intro entry hentry
        simp only [Function.comp_apply, stringifyEntry, Prod.map, id, ih entry hentry]
      rw [stored, stringify, stringify, stringifyEntries_eq, stringifyEntries_eq, storedEntries_eq,
        List.map_map, htexts]

include hnumbers

theorem stringify_eq_iff {value other : JsValue} :
    stringify numberText value = stringify numberText other ↔ value.stored = other.stored := by
  constructor
  · exact stored_eq_of_stringify_eq hnumbers
  · intro heq
    rw [← stringify_stored value, heq, stringify_stored]

end Reading

end JsValue
