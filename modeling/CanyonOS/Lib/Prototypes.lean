import CanyonOS.Lib.JsonText
import CanyonOS.Lib.JsonValue

/-!
# Objects with prototypes

The values of a language whose objects inherit from a prototype, which an assignment to the key
`__proto__` replaces. Of an object, what it inherits is read, but not written as JSON; and what is
written as JSON has no U+0000, whatever the strings in it.
-/

/-- A value. The prototype of an object is another value, or the one that all objects have. -/
inductive ScriptValue where
  | null
  | bool (value : Bool)
  | number (value : FloatValue)
  | string (text : CodeUnits)
  | array (items : List ScriptValue)
  | object (own : List (CodeUnits × ScriptValue)) (prototype : Option ScriptValue)

namespace ScriptValue

abbrev Entry := CodeUnits × ScriptValue

def empty : ScriptValue :=
  object [] none

def protoKey : CodeUnits :=
  JsValue.ascii "__proto__"

/-! ### Keys -/

def ownValue (own : List Entry) (key : CodeUnits) : Option ScriptValue :=
  (own.find? fun entry => entry.1 = key).map Prod.snd

/-- The value of a key that no built-in prototype has. -/
def get (key : CodeUnits) : ScriptValue → Option ScriptValue
  | object own none => ownValue own key
  | object own (some prototype) => (ownValue own key).or (prototype.get key)
  | _ => none

/-- Whether a key of an object with this prototype is found to be the accessor of all objects. -/
def reachesAccessor : ScriptValue → Bool
  | object own none => (ownValue own protoKey).isNone
  | object own (some prototype) => (ownValue own protoKey).isNone && prototype.reachesAccessor
  | array _ => true
  | _ => false

/-- Whether a value can be a prototype. -/
def canBePrototype : ScriptValue → Bool
  | null | array _ | object _ _ => true
  | _ => false

def putOwn (own : List Entry) (key : CodeUnits) (value : ScriptValue) : List Entry :=
  if (ownValue own key).isSome then
    own.map fun entry => if entry.1 = key then (key, value) else entry
  else own ++ [(key, value)]

/-- An assignment to a key of an object. -/
def set (target : ScriptValue) (key : CodeUnits) (value : ScriptValue) : ScriptValue :=
  match target with
  | object own prototype =>
      if key = protoKey ∧ target.reachesAccessor then
        if value.canBePrototype then object own (some value) else target
      else object (putOwn own key value) prototype
  | _ => target

/-! ### Texts -/

mutual

/-- The strings in a value, and the keys, inherited ones left out. -/
def texts : ScriptValue → List CodeUnits
  | string text => [text]
  | array items => textsItems items
  | object own _ => textsEntries own
  | _ => []

def textsItems : List ScriptValue → List CodeUnits
  | [] => []
  | item :: items => texts item ++ textsItems items

def textsEntries : List Entry → List CodeUnits
  | [] => []
  | (key, value) :: entries => key :: texts value ++ textsEntries entries

end

end ScriptValue

namespace JsValue

/-! ### JSON -/

theorem zero_notMem_ascii {text : String} (htext : ∀ char ∈ text.toList, 0 < char.toNat ∧
    char.toNat < 0x80) : (0 : CodeUnit) ∉ ascii text := by
  rw [ascii, List.mem_map]
  rintro ⟨char, hmem, hzero⟩
  have hchar := htext char hmem
  have hval := congrArg Fin.val hzero
  change char.toNat % 0x10000 = 0 at hval
  omega

theorem hexDigit_ne_zero {value : ℕ} (hvalue : value < 16) : hexDigit value ≠ 0 := by
  intro hzero
  have hval := congrArg Fin.val hzero
  unfold hexDigit at hval
  change (if value < 10 then 48 + value else 87 + value) % 0x10000 = 0 at hval
  split_ifs at hval <;> omega

theorem zero_notMem_escape (unit : CodeUnit) : (0 : CodeUnit) ∉ escape unit := by
  have hunit := unit.isLt
  unfold escape
  cases hfind : shortEscapes.find? (·.2 = unit) with
  | some found =>
      have hfound := List.mem_of_find?_eq_some hfind
      fin_cases hfound <;> simp [backslash, quotationMark]
  | none =>
      dsimp only
      split_ifs with hcontrol
      · simp only [List.mem_cons, List.not_mem_nil, or_false, not_or]
        exact ⟨by decide, by decide, (hexDigit_ne_zero (by omega)).symm,
          (hexDigit_ne_zero (by omega)).symm, (hexDigit_ne_zero (by omega)).symm,
          (hexDigit_ne_zero (by omega)).symm⟩
      · intro hmem
        rw [List.mem_singleton] at hmem
        subst hmem
        exact hcontrol (.inl (by decide))

theorem zero_notMem_escapeFrom {paired : Bool} {text : CodeUnits}
    (hpaired : paired = true → ∀ low ∈ text.head?, IsLowSurrogate low) :
    (0 : CodeUnit) ∉ escapeFrom paired text := by
  induction text generalizing paired with
  | nil => simp [escapeFrom]
  | cons unit units ih =>
      unfold escapeFrom
      split_ifs with hlow hhigh
      · have hunit : IsLowSurrogate unit := hpaired hlow unit rfl
        rw [List.mem_cons, not_or]
        refine ⟨fun hzero => ?_, ih (by simp)⟩
        rw [← hzero] at hunit
        exact absurd hunit (by decide)
      · obtain ⟨hunit, low, hhead, hlow⟩ := hhigh
        rw [List.mem_cons, not_or]
        refine ⟨fun hzero => ?_, ih fun _ other hother => ?_⟩
        · rw [← hzero] at hunit
          exact absurd hunit (by decide)
        · rw [Option.mem_def.mp hhead, Option.mem_some_iff] at hother
          exact hother ▸ hlow
      · rw [List.mem_append, not_or]
        exact ⟨zero_notMem_escape unit, ih (by simp)⟩

theorem zero_notMem_quote (text : CodeUnits) : (0 : CodeUnit) ∉ quote text := by
  have hescaped : (0 : CodeUnit) ∉ escapeFrom false text := zero_notMem_escapeFrom (by simp)
  simp [quote, quotationMark, hescaped]

theorem zero_notMem_commaSeparated {texts : List CodeUnits}
    (htexts : ∀ text ∈ texts, (0 : CodeUnit) ∉ text) : (0 : CodeUnit) ∉ commaSeparated texts := by
  cases texts with
  | nil => simp [commaSeparated]
  | cons text texts =>
      obtain ⟨htext, htexts⟩ := List.forall_mem_cons.mp htexts
      rw [commaSeparated, List.mem_append, List.mem_flatMap, not_or]
      refine ⟨htext, ?_⟩
      rintro ⟨other, hother, hzero⟩
      rw [List.mem_cons] at hzero
      obtain hzero | hzero := hzero
      · exact absurd hzero (by decide)
      · exact htexts other hother hzero

/-- A text of JSON has no U+0000, whatever the strings in the value. -/
theorem zero_notMem_stringify {numberText : ℚ → CodeUnits}
    (hnumbers : ∀ value, (0 : CodeUnit) ∉ numberText value) (value : JsValue) :
    (0 : CodeUnit) ∉ stringify numberText value := by
  induction value using JsValue.induct with
  | null => exact zero_notMem_ascii (by simp)
  | bool value => cases value <;> exact zero_notMem_ascii (by simp)
  | number value =>
      cases value with
      | none => exact zero_notMem_ascii (by simp)
      | some value => exact hnumbers value
  | string text => exact zero_notMem_quote text
  | array items ih =>
      have htexts : (0 : CodeUnit) ∉ commaSeparated (items.map (stringify numberText)) :=
        zero_notMem_commaSeparated (List.forall_mem_map.mpr ih)
      have hopen : (0 : CodeUnit) ≠ openBracket := by decide
      have hclose : (0 : CodeUnit) ≠ closeBracket := by decide
      rw [stringify, stringifyItems_eq]
      simp only [List.mem_cons, List.mem_append, List.not_mem_nil, hopen, hclose, htexts, or_false,
        not_false_eq_true]
  | object entries ih =>
      have htexts : (0 : CodeUnit) ∉ commaSeparated (entries.map (stringifyEntry numberText)) := by
        refine zero_notMem_commaSeparated (List.forall_mem_map.mpr fun entry hentry => ?_)
        have hcolon : (0 : CodeUnit) ≠ colon := by decide
        simp only [stringifyEntry, List.mem_append, List.mem_cons, zero_notMem_quote, hcolon,
          ih entry hentry, or_false, not_false_eq_true]
      have hopen : (0 : CodeUnit) ≠ openBrace := by decide
      have hclose : (0 : CodeUnit) ≠ closeBrace := by decide
      rw [stringify, stringifyEntries_eq]
      simp only [List.mem_cons, List.mem_append, List.not_mem_nil, hopen, hclose, htexts, or_false,
        not_false_eq_true]

end JsValue
