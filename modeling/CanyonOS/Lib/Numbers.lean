import CanyonOS.Lib.JsonValue

/-!
# Numbers of a dynamic language

Integers of any size and doubles in one type, with arithmetic that goes over to doubles where one
of the two is one, and an order that compares exact values. How a rational number is rounded to a
double is a parameter.
-/

namespace FloatValue

variable (round : ℚ → FloatValue)

def neg : FloatValue → FloatValue
  | finite value => finite (-value)
  | infinity negative => infinity !negative
  | nan => nan

def add : FloatValue → FloatValue → FloatValue
  | finite left, finite right => round (left + right)
  | infinity left, infinity right => if left = right then infinity left else nan
  | infinity negative, finite _ | finite _, infinity negative => infinity negative
  | nan, _ | _, nan => nan

def mul : FloatValue → FloatValue → FloatValue
  | finite left, finite right => round (left * right)
  | infinity left, infinity right => infinity (left != right)
  | infinity negative, finite value | finite value, infinity negative =>
      if value = 0 then nan else infinity (negative != decide (value < 0))
  | nan, _ | _, nan => nan

def divBy (divisor : ℚ) : FloatValue → FloatValue
  | finite value => round (value / divisor)
  | infinity negative => infinity (negative != decide (divisor < 0))
  | nan => nan

def lt : FloatValue → FloatValue → Bool
  | finite left, finite right => left < right
  | infinity left, infinity right => left && !right
  | infinity negative, finite _ => negative
  | finite _, infinity negative => !negative
  | nan, _ | _, nan => false

end FloatValue

inductive Number where
  | int (value : ℤ)
  | float (value : FloatValue)
  deriving DecidableEq

namespace Number

/-- The number itself, of which a double may only have a neighbour. -/
def exact : Number → FloatValue
  | int value => .finite value
  | float value => value

def lt (left right : Number) : Bool :=
  left.exact.lt right.exact

/-- Not more; what is no number is neither more nor not more. -/
def le (left right : Number) : Bool :=
  left.lt right || (left.exact = right.exact && left.exact ≠ .nan)

/-- The same number. -/
def eq (left right : Number) : Bool :=
  left.exact = right.exact && left.exact ≠ .nan

variable (round : ℚ → FloatValue)

/-- As a double; none for an integer beyond them all. -/
def toFloat : Number → Option FloatValue
  | int value =>
      match round value with
      | .finite nearest => some (.finite nearest)
      | _ => none
  | float value => some value

def arithmetic (ints : ℤ → ℤ → ℤ) (floats : FloatValue → FloatValue → FloatValue) :
    Number → Number → Option Number
  | int left, int right => some (int (ints left right))
  | left, right => do
      let left ← left.toFloat round
      let right ← right.toFloat round
      some (float (floats left right))

def add : Number → Number → Option Number :=
  arithmetic round (· + ·) (FloatValue.add round)

def sub : Number → Number → Option Number :=
  arithmetic round (· - ·) fun left right => FloatValue.add round left right.neg

def mul : Number → Number → Option Number :=
  arithmetic round (· * ·) (FloatValue.mul round)

/-- The quotient, a double. -/
def divBy (divisor : ℚ) (number : Number) : Option Number :=
  (number.toFloat round).map fun value => float (value.divBy round divisor)

end Number

namespace JsonValue

/-- As arithmetic takes a value. -/
def asNumber : JsonValue → Option Number
  | bool value => some (.int (if value then 1 else 0))
  | int value => some (.int value)
  | float value => some (.float value)
  | _ => none

def ofNumber : Number → JsonValue
  | .int value => int value
  | .float value => float value

/-- `+`, which appends texts and lists; none where it raises. -/
def add (round : ℚ → FloatValue) : JsonValue → JsonValue → Option JsonValue
  | str left, str right => some (str (left ++ right))
  | list left, list right => some (list (left ++ right))
  | left, right => do
      let left ← left.asNumber
      let right ← right.asNumber
      (left.add round right).map ofNumber

theorem add_int (round : ℚ → FloatValue) (left right : ℤ) :
    add round (int left) (int right) = some (int (left + right)) :=
  rfl

/-! ### Equality -/

section Equality

variable (boolsAreNumbers : Bool)

def numberOf : JsonValue → Option Number
  | bool value => if boolsAreNumbers then some (.int (if value then 1 else 0)) else none
  | int value => some (.int value)
  | float value => some (.float value)
  | _ => none

def sameNumber (left right : JsonValue) : Bool :=
  match left.numberOf boolsAreNumbers, right.numberOf boolsAreNumbers with
  | some left, some right => left.eq right
  | _, _ => false

mutual

/-- Whether two values are equal, at any depth; where booleans are numbers, they equal 0 and 1. -/
def equal : JsonValue → JsonValue → Bool
  | null, null => true
  | bool left, bool right => left = right
  | str left, str right => left = right
  | list left, list right => equalItems left right
  | dict left, dict right =>
      equalEntries left right && right.all fun entry => (get left entry.1).isSome
  | left, right => sameNumber boolsAreNumbers left right

def equalItems : List JsonValue → List JsonValue → Bool
  | [], [] => true
  | left :: lefts, right :: rights => equal left right && equalItems lefts rights
  | _, _ => false

/-- Of the entries with one key, the last one counts. -/
def equalEntries : List (CodePoints × JsonValue) → List (CodePoints × JsonValue) → Bool
  | [], _ => true
  | (key, value) :: entries, others =>
      ((entries.any fun entry => entry.1 = key) ||
        match get others key with
        | some other => equal value other
        | none => false) && equalEntries entries others

end

end Equality

theorem sameNumber_mono {left right : JsonValue} (hsame : sameNumber false left right = true) :
    sameNumber true left right = true := by
  cases left <;> cases right <;> first | exact hsame | cases hsame

mutual

theorem equal_mono : ∀ left right : JsonValue, equal false left right = true →
    equal true left right = true
  | null, right => by
      intro hequal
      cases right <;> first | rfl | cases hequal
  | bool value, right => by
      intro hequal
      cases right <;> first | exact hequal | cases hequal
  | int value, right => by
      intro hequal
      cases right <;> first | exact hequal | cases hequal
  | float value, right => by
      intro hequal
      cases right <;> first | exact hequal | cases hequal
  | str value, right => by
      intro hequal
      cases right <;> exact hequal
  | list items, right => by
      intro hequal
      cases right with
      | list others => exact equalItems_mono items others hequal
      | _ => cases hequal
  | dict entries, right => by
      intro hequal
      cases right with
      | dict others =>
          simp only [equal, Bool.and_eq_true] at hequal ⊢
          exact ⟨equalEntries_mono entries others hequal.1, hequal.2⟩
      | _ => cases hequal

theorem equalItems_mono : ∀ lefts rights : List JsonValue, equalItems false lefts rights = true →
    equalItems true lefts rights = true
  | [], [], _ => rfl
  | left :: lefts, right :: rights, hequal => by
      simp only [equalItems, Bool.and_eq_true] at hequal ⊢
      exact ⟨equal_mono left right hequal.1, equalItems_mono lefts rights hequal.2⟩

theorem equalEntries_mono : ∀ entries others : List (CodePoints × JsonValue),
    equalEntries false entries others = true → equalEntries true entries others = true
  | [], _, _ => rfl
  | (key, value) :: entries, others, hequal => by
      simp only [equalEntries, Bool.and_eq_true, Bool.or_eq_true] at hequal ⊢
      refine ⟨hequal.1.imp_right fun hvalue => ?_, equalEntries_mono entries others hequal.2⟩
      cases hget : get others key with
      | none => simp [hget] at hvalue
      | some other =>
          simp only [hget] at hvalue ⊢
          exact equal_mono value other hvalue

end

end JsonValue
