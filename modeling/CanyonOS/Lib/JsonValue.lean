import CanyonOS.Lib.CodePoints
import Mathlib.Data.Rat.Defs

/-!
# JSON values

The values a JSON parser of a dynamic language gives: integers of any size, floating-point numbers
with the infinities and the one that is no number, strings of any code points.
-/

/-- A double: the rational number it is, or none. -/
inductive FloatValue where
  | finite (value : ℚ)
  | infinity (negative : Bool)
  | nan
deriving DecidableEq

inductive JsonValue where
  | null
  | bool (value : Bool)
  | int (value : Int)
  | float (value : FloatValue)
  | str (value : CodePoints)
  | list (items : List JsonValue)
  | dict (items : List (CodePoints × JsonValue))

namespace JsonValue

/-- Whether the value counts as true. -/
def isTruthy : JsonValue → Bool
  | null => false
  | bool value => value
  | int value => value ≠ 0
  | float value => value ≠ .finite 0
  | str value => value ≠ []
  | list items => !items.isEmpty
  | dict items => !items.isEmpty

/-- The value of a key, the last one written. -/
def get (items : List (CodePoints × JsonValue)) (key : CodePoints) : Option JsonValue :=
  (items.reverse.find? fun entry => entry.1 = key).map Prod.snd

theorem mem_of_get {entries : List (CodePoints × JsonValue)} {key : CodePoints} {value : JsonValue}
    (hget : get entries key = some value) : (key, value) ∈ entries := by
  obtain ⟨entry, hfind, rfl⟩ := Option.map_eq_some_iff.mp hget
  have hkey := List.find?_some hfind
  simp only [decide_eq_true_eq] at hkey
  subst hkey
  exact List.mem_reverse.mp (List.mem_of_find?_eq_some hfind)

theorem isSome_get {entries : List (CodePoints × JsonValue)} {entry : CodePoints × JsonValue}
    (hmem : entry ∈ entries) : (get entries entry.1).isSome := by
  unfold get
  rw [Option.isSome_map, List.find?_isSome]
  exact ⟨entry, List.mem_reverse.mpr hmem, decide_eq_true rfl⟩

/-- What a parser does with a text. -/
inductive Loaded where
  | value (value : JsonValue)
  | valueError
  /-- nested too deep for its stack -/
  | recursionError

/-! ### Writing -/

open CodePoints

def quotationMark : CodePoint :=
  ofChar '"'

def backslash : CodePoint :=
  ofChar '\\'

/-- A character as a JSON string has it: a short escape, a numeric one, or itself. -/
def escape (char : CodePoint) : CodePoints :=
  if char = quotationMark then [backslash, quotationMark]
  else if char = backslash then [backslash, backslash]
  else if char.val = 8 then [backslash, ofChar 'b']
  else if char.val = 9 then [backslash, ofChar 't']
  else if char.val = 10 then [backslash, ofChar 'n']
  else if char.val = 12 then [backslash, ofChar 'f']
  else if char.val = 13 then [backslash, ofChar 'r']
  else if char.val < 0x20 then
    backslash :: ofString "u00" ++
      [ofChar (Nat.digitChar (char.val / 16)), ofChar (Nat.digitChar (char.val % 16))]
  else [char]

def dumpString (text : CodePoints) : CodePoints :=
  [quotationMark] ++ text.flatMap escape ++ [quotationMark]

def dumpEntry (key value : CodePoints) : CodePoints :=
  dumpString key ++ [ofChar ':'] ++ value

def dumpArray (items : List CodePoints) : CodePoints :=
  [ofChar '['] ++ [ofChar ','].intercalate items ++ [ofChar ']']

def dumpObject (entries : List CodePoints) : CodePoints :=
  ofString "\x7b" ++ [ofChar ','].intercalate entries ++ ofString "\x7d"

section Dumps

variable (floatText : FloatValue → CodePoints)

mutual

/-- The value without spaces, beyond ASCII as it is. -/
def dumps : JsonValue → CodePoints
  | null => ofString "null"
  | bool true => ofString "true"
  | bool false => ofString "false"
  | int value => ofString (toString value)
  | float value => floatText value
  | str value => dumpString value
  | list items => dumpArray (dumpsItems items)
  | dict items => dumpObject (dumpsEntries items)

def dumpsItems : List JsonValue → List CodePoints
  | [] => []
  | item :: items => dumps item :: dumpsItems items

def dumpsEntries : List (CodePoints × JsonValue) → List CodePoints
  | [] => []
  | (key, value) :: entries => dumpEntry key (dumps value) :: dumpsEntries entries

end

theorem dumpsItems_eq (items : List JsonValue) :
    dumpsItems floatText items = items.map (dumps floatText) := by
  induction items with
  | nil => rfl
  | cons item items ih => rw [dumpsItems, ih, List.map_cons]

theorem dumpsEntries_eq (entries : List (CodePoints × JsonValue)) :
    dumpsEntries floatText entries =
      entries.map fun entry => dumpEntry entry.1 (dumps floatText entry.2) := by
  induction entries with
  | nil => rfl
  | cons entry entries ih => rw [dumpsEntries, ih, List.map_cons]

end Dumps

end JsonValue
