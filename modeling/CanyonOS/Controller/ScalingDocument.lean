import CanyonOS.Controller.Rounding
import CanyonOS.Lib.Numbers

/-!
# Who accepts a scaling policy

The controller checks the policy in `scaling:config` with integers of any size, the API the same
document with doubles only. A number that is no double is another number for the dashboard, or none
that it accepts.
-/

namespace CanyonOS.ScalingDocument

open JsonValue CodePoints Doubles

/-- The fields of a policy, its numbers as one of the two sides has them. -/
structure Policy (Value : Type) where
  minReplicas : Value
  maxReplicas : Value
  metric : CodePoints
  scaleUpAbove : Value
  scaleDownBelow : Value

def Policy.map {Value Other : Type} (f : Value → Other) (policy : Policy Value) :
    Policy Other where
  minReplicas := f policy.minReplicas
  maxReplicas := f policy.maxReplicas
  metric := policy.metric
  scaleUpAbove := f policy.scaleUpAbove
  scaleDownBelow := f policy.scaleDownBelow

abbrev Fields := List (CodePoints × JsonValue)

/-- `METRICS`. -/
def metrics : List String := ["queue_length_total", "requests_per_minute_per_replica"]

def isMetric (value : CodePoints) : Bool :=
  (metrics.map ofString).contains value

/-- `float.is_integer`. -/
def isInteger : FloatValue → Bool
  | .finite value => value.den = 1
  | .infinity _ | .nan => false

/-! ### The controller -/

/-- `_is_int`, of a number. -/
def isInt : Number → Bool
  | .int _ => true
  | .float value => isInteger value

/-- The value of a field, when it passes `_is_number`. -/
def number? (policy : Fields) (field : String) : Option Number :=
  (get policy (ofString field)).bind (numberOf false)

def requireCount (policy : Fields) (field : String) : Except String Number :=
  match (number? policy field).filter fun value => isInt value && !value.lt (.int 1) with
  | some value => .ok value
  | none => .error (field ++ " must be an integer >= 1")

def requireMetric (policy : Fields) : Except String CodePoints :=
  match get policy (ofString "metric") with
  | some (.str metric) =>
      if isMetric metric then .ok metric
      else .error ("metric must be one of " ++ ", ".intercalate metrics)
  | _ => .error ("metric must be one of " ++ ", ".intercalate metrics)

def requireNumber (policy : Fields) (field : String) : Except String Number :=
  match (number? policy field).filter fun value => (Number.int 0).le value with
  | some value => .ok value
  | none => .error (field ++ " must be a number >= 0")

def require (holds : Bool) (error : String) : Except String Unit :=
  if holds then .ok () else .error error

/-- The policy that `scale` goes by, or the first rule it breaks. -/
def check : JsonValue → Except String (Policy Number)
  | .dict policy => do
      let minReplicas ← requireCount policy "min_replicas"
      let maxReplicas ← requireCount policy "max_replicas"
      require (!maxReplicas.lt minReplicas) "min_replicas must not exceed max_replicas"
      let metric ← requireMetric policy
      let scaleUpAbove ← requireNumber policy "scale_up_above"
      let scaleDownBelow ← requireNumber policy "scale_down_below"
      require (!scaleUpAbove.le scaleDownBelow) "scale_down_below must be less than scale_up_above"
      .ok { minReplicas, maxReplicas, metric, scaleUpAbove, scaleDownBelow }
  | _ => .error "a policy must be a mapping"

def policyError (policy : JsonValue) : Option String :=
  match check policy with
  | .ok _ => none
  | .error error => some error

/-! ### The API -/

/-- A number as a double. -/
def double : Number → FloatValue
  | .int value =>
      if value.natAbs < Governance.doubleLimit then
        .finite ((value.sign * Governance.roundToDouble value.natAbs : ℤ) : ℚ)
      else .infinity (value < 0)
  | .float value => value

mutual

/-- A document as `JSON.parse` has it. -/
def parsed : JsonValue → JsonValue
  | .int value => .float (double (.int value))
  | .list items => .list (parsedItems items)
  | .dict entries => .dict (parsedEntries entries)
  | value => value

def parsedItems : List JsonValue → List JsonValue
  | [] => []
  | item :: items => parsed item :: parsedItems items

def parsedEntries : Fields → Fields
  | [] => []
  | (key, value) :: entries => (key, parsed value) :: parsedEntries entries

end

/-- `z.number()`. -/
def zodNumber (policy : Fields) (field : String) : Option FloatValue :=
  match get policy (ofString field) with
  | some (.float value) => if value = .nan then none else some value
  | _ => none

/-- `MIN_REPLICAS_FLOOR`. -/
def minReplicasFloor : FloatValue := .finite 1

/-- `z.number().int().min(MIN_REPLICAS_FLOOR)`. -/
def zodCount (policy : Fields) (field : String) : Option FloatValue :=
  (zodNumber policy field).filter fun value => isInteger value && !value.lt minReplicasFloor

/-- `z.number().nonnegative()`. -/
def zodNonnegative (policy : Fields) (field : String) : Option FloatValue :=
  (zodNumber policy field).filter fun value => !value.lt (.finite 0)

/-- `ScalingMetricSchema`. -/
def zodMetric (policy : Fields) : Option CodePoints :=
  match get policy (ofString "metric") with
  | some (.str metric) => if isMetric metric then some metric else none
  | _ => none

/-- The fields of `ScalingPolicySchema`, each by itself. -/
def zodObject : JsonValue → Option (Policy FloatValue)
  | .dict policy => do
      let minReplicas ← zodCount policy "min_replicas"
      let maxReplicas ← zodCount policy "max_replicas"
      let metric ← zodMetric policy
      let scaleUpAbove ← zodNonnegative policy "scale_up_above"
      let scaleDownBelow ← zodNonnegative policy "scale_down_below"
      some { minReplicas, maxReplicas, metric, scaleUpAbove, scaleDownBelow }
  | _ => none

/-- An issue: its path and its message. -/
abbrev Issue := String × String

/-- What `superRefine` adds. -/
def issues (policy : Policy FloatValue) : List Issue :=
  (if policy.maxReplicas.lt policy.minReplicas then
    [("max_replicas", "max_replicas must be greater than or equal to min_replicas")]
  else []) ++
  if (Number.float policy.scaleUpAbove).le (.float policy.scaleDownBelow) then
    [("scale_down_below", "scale_down_below must be less than scale_up_above")]
  else []

/-- `ScalingPolicySchema.safeParse`. -/
def safeParse (document : JsonValue) : Option (Policy FloatValue) :=
  (zodObject document).filter fun policy => (issues policy).isEmpty

/-! ### Documents -/

mutual

/-- Whether every number with a fraction or an exponent is a double. -/
def HasDoubles : JsonValue → Prop
  | .float (.finite value) => IsDouble value
  | .list items => ItemsHaveDoubles items
  | .dict entries => EntriesHaveDoubles entries
  | _ => True

def ItemsHaveDoubles : List JsonValue → Prop
  | [] => True
  | item :: items => HasDoubles item ∧ ItemsHaveDoubles items

def EntriesHaveDoubles : Fields → Prop
  | [] => True
  | (_, value) :: entries => HasDoubles value ∧ EntriesHaveDoubles entries

end

/-- A document as `json.loads` has it. -/
structure Document where
  value : JsonValue
  doubles : HasDoubles value

/-- A policy is one for both sides or for neither, with the same counts. -/
structure Agree (document : Document) : Prop where
  accepted : policyError document.value = none ↔ (safeParse (parsed document.value)).isSome
  sameCounts : ∀ policy, check document.value = .ok policy →
    ∀ shown ∈ safeParse (parsed document.value), policy.minReplicas.exact = shown.minReplicas ∧
      policy.maxReplicas.exact = shown.maxReplicas

/-! ### When they agree -/

/-- The fields of a policy that the controller finds valid one by one. -/
def fields : JsonValue → Option (Policy Number)
  | .dict policy => do
      let minReplicas ← (requireCount policy "min_replicas").toOption
      let maxReplicas ← (requireCount policy "max_replicas").toOption
      let metric ← (requireMetric policy).toOption
      let scaleUpAbove ← (requireNumber policy "scale_up_above").toOption
      let scaleDownBelow ← (requireNumber policy "scale_down_below").toOption
      some { minReplicas, maxReplicas, metric, scaleUpAbove, scaleDownBelow }
  | _ => none

/-- Rounding changes nothing that decides on a policy: of counts in order it changes none, and
thresholds in order it keeps apart; counts out of order it keeps apart, unless they are beyond the
doubles or the thresholds become one. -/
def Kept (policy : Policy Number) : Prop :=
  if policy.maxReplicas.lt policy.minReplicas then
    (double policy.scaleDownBelow).lt (double policy.scaleUpAbove) →
      isInteger (double policy.minReplicas) → isInteger (double policy.maxReplicas) →
        (double policy.maxReplicas).lt (double policy.minReplicas)
  else
    policy.scaleDownBelow.lt policy.scaleUpAbove →
      double policy.minReplicas = policy.minReplicas.exact ∧
        double policy.maxReplicas = policy.maxReplicas.exact ∧
          (double policy.scaleDownBelow).lt (double policy.scaleUpAbove)

def HoldsWhen (document : Document) : Prop :=
  ∀ policy ∈ fields document.value, Kept policy

/-! ### Rounding -/

section Rounding

open Governance

theorem double_natCast (value : ℕ) :
    double (.int value) =
      if value < doubleLimit then .finite (roundToDouble value) else .infinity false := by
  obtain rfl | hpos := Nat.eq_zero_or_pos value
  · rfl
  · have hsign : (value : ℤ).sign = 1 := Int.sign_natCast_of_ne_zero hpos.ne'
    simp only [double]
    rw [Int.natAbs_natCast, hsign, one_mul, Int.cast_natCast,
      decide_eq_false (Int.natCast_nonneg value).not_gt]

theorem double_neg {value : ℕ} (hpos : 0 < value) :
    double (.int (-value)) =
      if value < doubleLimit then .finite (-(roundToDouble value : ℚ)) else .infinity true := by
  have hsign : (-(value : ℤ)).sign = -1 := Int.sign_eq_neg_one_of_neg (by omega)
  simp only [double]
  rw [Int.natAbs_neg, Int.natAbs_natCast, hsign, decide_eq_true (by omega)]
  norm_num

/-- An integer is below zero, or below one, when its double is. -/
theorem double_int_lt (value : ℤ) {bound : ℕ} (hbound : bound ≤ 1) :
    (double (.int value)).lt (.finite bound) = decide (value < bound) := by
  obtain hneg | hnonneg := lt_or_ge value 0
  · obtain ⟨magnitude, hmagnitude⟩ := Int.eq_ofNat_of_zero_le (neg_nonneg.mpr hneg.le)
    obtain rfl : value = -magnitude := by omega
    have hpos : 0 < magnitude := by omega
    have hround : (0 : ℚ) < roundToDouble magnitude := Nat.cast_pos.mpr (roundToDouble_pos hpos)
    rw [double_neg hpos, decide_eq_true (by omega)]
    split_ifs with hlimit
    · refine decide_eq_true ?_
      have hbound : (0 : ℚ) ≤ bound := Nat.cast_nonneg bound
      linarith
    · rfl
  · obtain ⟨value, rfl⟩ := Int.eq_ofNat_of_zero_le hnonneg
    rw [double_natCast]
    split_ifs with hlimit
    · refine decide_eq_decide.mpr ?_
      rw [Nat.cast_lt, Nat.cast_lt]
      obtain rfl | hpos := Nat.eq_zero_or_pos value
      · rfl
      · have hround := roundToDouble_pos hpos
        omega
    · have hlarge := doubleLimit_pos
      generalize doubleLimit = limit at hlimit hlarge
      refine (decide_eq_false ?_).symm
      omega

end Rounding

/-! ### Numbers of a policy -/

/-- Not negative, and a double unless it is an integer. -/
inductive Valid : Number → Prop
  | int (value : ℕ) : Valid (.int value)
  | finite {value : ℚ} (hdouble : IsDouble value) (hnonneg : 0 ≤ value) :
      Valid (.float (.finite value))
  | infinity : Valid (.float (.infinity false))

/-- Rounding does not turn two numbers round. -/
theorem lt_of_double_lt {left right : Number} (hleft : Valid left) (hright : Valid right)
    (hlt : (double left).lt (double right) = true) : left.lt right = true := by
  cases hleft with
  | int left =>
      rw [double_natCast] at hlt
      cases hright with
      | int right =>
          rw [double_natCast] at hlt
          refine decide_eq_true (Int.cast_lt.mpr (Nat.cast_lt.mpr ?_))
          split_ifs at hlt with hleft hright hright
          · by_contra hge
            have hround := Nat.cast_lt.mp (of_decide_eq_true hlt)
            exact hround.not_ge (Governance.roundToDouble_mono (Nat.le_of_not_lt hge))
          · omega
          · cases hlt
          · cases hlt
      | finite hdouble =>
          split_ifs at hlt with hleft
          · refine decide_eq_true ?_
            by_contra hge
            exact (of_decide_eq_true hlt).not_ge
              (Governance.le_roundToDouble hdouble (le_of_not_gt hge))
          · cases hlt
      | infinity => rfl
  | finite hdouble =>
      cases hright with
      | int right =>
          rw [double_natCast] at hlt
          refine decide_eq_true ?_
          split_ifs at hlt with hright
          · by_contra hge
            exact (of_decide_eq_true hlt).not_ge
              (Governance.roundToDouble_le hdouble (le_of_not_gt hge))
          · calc _ < (limit 970 : ℚ) := hdouble.lt_limit
              _ = (Governance.doubleLimit : ℚ) := by rw [Governance.doubleLimit_eq]
              _ ≤ right := Nat.cast_le.mpr (Nat.le_of_not_lt hright)
      | finite hother hnonneg => exact hlt
      | infinity => rfl
  | infinity =>
      cases hright with
      | int right =>
          rw [double_natCast] at hlt
          split_ifs at hlt <;> cases hlt
      | finite hother hnonneg => cases hlt
      | infinity => cases hlt

theorem le_eq_not_lt {left right : Number} (hleft : left.exact ≠ .nan)
    (hright : right.exact ≠ .nan) : left.le right = !right.lt left := by
  unfold Number.le Number.lt
  generalize left.exact = left at hleft
  generalize right.exact = right at hright
  cases left with
  | nan => exact absurd rfl hleft
  | infinity negative =>
      cases right with
      | nan => exact absurd rfl hright
      | infinity other => cases negative <;> cases other <;> rfl
      | finite value => cases negative <;> rfl
  | finite value =>
      cases right with
      | nan => exact absurd rfl hright
      | infinity negative => cases negative <;> rfl
      | finite other =>
          obtain hlt | heq | hgt := lt_trichotomy value other
          · simp [FloatValue.lt, hlt, hlt.le]
          · simp [FloatValue.lt, heq]
          · simp [FloatValue.lt, hgt, hgt.ne', hgt.le]

theorem Valid.exact_ne_nan {number : Number} (hvalid : Valid number) : number.exact ≠ .nan := by
  cases hvalid <;> exact fun hnan => nomatch hnan

theorem Valid.double_ne_nan {number : Number} (hvalid : Valid number) :
    double number ≠ .nan := by
  cases hvalid with
  | int value =>
      rw [double_natCast]
      split_ifs <;> exact fun hnan => nomatch hnan
  | finite hdouble hnonneg => exact fun hnan => nomatch hnan
  | infinity => exact fun hnan => nomatch hnan

theorem le_of_one_le {number : Number} (hint : isInt number) (hone : number.lt (.int 1) = false) :
    (Number.int 0).le number = true := by
  have hnan : number.exact ≠ .nan := by
    intro hnan
    cases number with
    | int value => cases hnan
    | float value =>
        obtain rfl : value = .nan := hnan
        cases hint
  have hle : (Number.int 0).le number = !number.lt (.int 0) :=
    le_eq_not_lt (fun hnan => nomatch hnan) hnan
  have hlt : ((0 : ℤ) : ℚ) < ((1 : ℤ) : ℚ) := by norm_num
  rw [hle, Bool.not_eq_true']
  cases number with
  | int value =>
      exact decide_eq_false fun hneg => of_decide_eq_false hone (hneg.trans hlt)
  | float value =>
      cases value with
      | finite value =>
          exact decide_eq_false fun hneg => of_decide_eq_false hone (hneg.trans hlt)
      | infinity negative => cases hint
      | nan => cases hint

theorem isInt_eq (number : Number) : isInt number = isInteger number.exact := by
  cases number with
  | int value => exact (decide_eq_true (Rat.den_intCast value)).symm
  | float value => rfl

/-! ### Fields -/

section Fields

variable {policy : Fields} {field : String}

theorem parsedEntries_eq (entries : Fields) :
    parsedEntries entries = entries.map fun entry => (entry.1, parsed entry.2) := by
  induction entries with
  | nil => rfl
  | cons entry entries ih => rw [parsedEntries, ih, List.map_cons]

theorem get_parsedEntries (entries : Fields) (key : CodePoints) :
    get (parsedEntries entries) key = (get entries key).map parsed := by
  rw [parsedEntries_eq, JsonValue.get, JsonValue.get, ← List.map_reverse, List.find?_map,
    Option.map_map, Option.map_map]
  rfl

theorem hasDoubles_of_mem {entries : Fields} (hdoubles : EntriesHaveDoubles entries) :
    ∀ entry ∈ entries, HasDoubles entry.2 := by
  induction entries with
  | nil => exact List.forall_mem_nil _
  | cons entry entries ih => exact List.forall_mem_cons.mpr ⟨hdoubles.1, ih hdoubles.2⟩

/-- The number of a field that `requireCount` accepts. -/
def count? (policy : Fields) (field : String) : Option Number :=
  (number? policy field).filter fun value => isInt value && !value.lt (.int 1)

def threshold? (policy : Fields) (field : String) : Option Number :=
  (number? policy field).filter fun value => (Number.int 0).le value

theorem requireCount_eq : requireCount policy field =
    match count? policy field with
    | some value => .ok value
    | none => .error (field ++ " must be an integer >= 1") :=
  rfl

theorem requireNumber_eq : requireNumber policy field =
    match threshold? policy field with
    | some value => .ok value
    | none => .error (field ++ " must be a number >= 0") :=
  rfl

/-- A number of the document that is not below zero. -/
theorem valid_of_number? (hdoubles : EntriesHaveDoubles policy) {number : Number}
    (hnumber : number? policy field = some number) (hle : (Number.int 0).le number = true) :
    Valid number := by
  obtain ⟨value, hget, hvalue⟩ := Option.bind_eq_some_iff.mp hnumber
  have hdouble : HasDoubles value := hasDoubles_of_mem hdoubles _ (mem_of_get hget)
  cases value with
  | int value =>
      cases hvalue
      have hnonneg : 0 ≤ value := by
        by_contra hneg
        have hlt : (value : ℚ) < 0 := by exact_mod_cast lt_of_not_ge hneg
        simp [Number.le, Number.lt, Number.exact, FloatValue.lt, hlt.not_gt, hlt.ne'] at hle
      obtain ⟨value, rfl⟩ := Int.eq_ofNat_of_zero_le hnonneg
      exact .int value
  | float value =>
      cases hvalue
      cases value with
      | finite value =>
          refine .finite hdouble ?_
          by_contra hneg
          have hlt := lt_of_not_ge hneg
          simp [Number.le, Number.lt, Number.exact, FloatValue.lt, hlt.not_gt, hlt.ne'] at hle
      | infinity negative =>
          cases negative with
          | false => exact .infinity
          | true => cases hle
      | nan => cases hle
  | _ => cases hvalue

theorem zodCount_parsed : zodCount (parsedEntries policy) field =
    ((count? policy field).map double).filter isInteger := by
  unfold zodCount zodNumber count? number?
  rw [get_parsedEntries]
  cases get policy (ofString field) with
  | none => rfl
  | some value =>
      cases value with
      | int value =>
          have hone :
              (double (.int value)).lt minReplicasFloor = (Number.int value).lt (.int 1) := by
            rw [minReplicasFloor, ← Nat.cast_one, double_int_lt value le_rfl]
            exact decide_eq_decide.mpr Int.cast_lt.symm
          have hnan : double (.int value) ≠ .nan := by
            unfold double
            dsimp only
            split_ifs <;> exact fun hnan => nomatch hnan
          simp only [Option.map_some, parsed, if_neg hnan, Option.bind_some, numberOf, isInt,
            Option.filter_some, Bool.true_and, hone]
          cases (Number.int value).lt (.int 1) <;>
            cases hinteger : isInteger (double (.int value)) <;>
              simp [Option.filter_some, hinteger]
      | float value =>
          simp only [Option.map_some, parsed, Option.bind_some, numberOf, isInt]
          by_cases hnan : value = .nan
          · rw [hnan]
            rfl
          · have hone : value.lt minReplicasFloor = (Number.float value).lt (.int 1) := by
              rw [minReplicasFloor, ← Int.cast_one]
              rfl
            rw [if_neg hnan, Option.filter_some, Option.filter_some, hone]
            cases (Number.float value).lt (.int 1) <;> cases hinteger : isInteger value <;>
              simp [Option.filter_some, hinteger, double]
      | _ => rfl

theorem zodNonnegative_parsed : zodNonnegative (parsedEntries policy) field =
    (threshold? policy field).map double := by
  unfold zodNonnegative zodNumber threshold? number?
  rw [get_parsedEntries]
  cases get policy (ofString field) with
  | none => rfl
  | some value =>
      cases value with
      | int value =>
          have hzero : (double (.int value)).lt (.finite 0) = (Number.int value).lt (.int 0) := by
            rw [← Nat.cast_zero, double_int_lt value zero_le_one]
            exact decide_eq_decide.mpr Int.cast_lt.symm
          have hnan : double (.int value) ≠ .nan := by
            unfold double
            dsimp only
            split_ifs <;> exact fun hnan => nomatch hnan
          have hle : (Number.int 0).le (.int value) = !(Number.int value).lt (.int 0) :=
            le_eq_not_lt (fun hnan => nomatch hnan) (fun hnan => nomatch hnan)
          simp only [Option.map_some, parsed, if_neg hnan, Option.bind_some, numberOf,
            Option.filter_some, hzero, hle]
          cases (Number.int value).lt (.int 0) <;> rfl
      | float value =>
          simp only [Option.map_some, parsed, Option.bind_some, numberOf]
          by_cases hnan : value = .nan
          · rw [hnan]
            rfl
          · have hzero : value.lt (.finite 0) = (Number.float value).lt (.int 0) := by
              rw [← Int.cast_zero]
              rfl
            have hle : (Number.int 0).le (.float value) = !(Number.float value).lt (.int 0) :=
              le_eq_not_lt (fun hnan => nomatch hnan) hnan
            rw [if_neg hnan, Option.filter_some, Option.filter_some, hzero, hle]
            cases (Number.float value).lt (.int 0) <;> rfl
      | _ => rfl

theorem zodMetric_parsed : zodMetric (parsedEntries policy) = (requireMetric policy).toOption := by
  unfold zodMetric requireMetric
  rw [get_parsedEntries]
  cases get policy (ofString "metric") with
  | none => rfl
  | some value =>
      cases value with
      | str metric =>
          simp only [Option.map_some, parsed]
          split_ifs <;> rfl
      | _ => rfl

end Fields

/-! ### Policies -/

theorem zodObject_parsed (document : JsonValue) : zodObject (parsed document) =
    ((fields document).filter fun policy =>
      isInteger (double policy.minReplicas) && isInteger (double policy.maxReplicas)).map
        (Policy.map double) := by
  cases document with
  | dict policy =>
      simp only [parsed, zodObject, fields, zodCount_parsed, zodNonnegative_parsed,
        zodMetric_parsed, requireCount_eq, requireNumber_eq]
      generalize count? policy "min_replicas" = minReplicas
      generalize count? policy "max_replicas" = maxReplicas
      generalize (requireMetric policy).toOption = metric
      generalize threshold? policy "scale_up_above" = scaleUpAbove
      generalize threshold? policy "scale_down_below" = scaleDownBelow
      cases minReplicas with
      | none => rfl
      | some minReplicas =>
          cases maxReplicas with
          | none =>
              cases hmin : isInteger (double minReplicas) <;>
                simp [Option.filter_some, Except.toOption, hmin]
          | some maxReplicas =>
              cases metric <;> cases scaleUpAbove <;> cases scaleDownBelow <;>
                cases hmin : isInteger (double minReplicas) <;>
                  cases hmax : isInteger (double maxReplicas) <;>
                    simp [Option.filter_some, Except.toOption, Policy.map, hmin, hmax]
  | _ => rfl

theorem toOption_check (document : JsonValue) : (check document).toOption =
    (fields document).filter fun policy =>
      !policy.maxReplicas.lt policy.minReplicas &&
        !policy.scaleUpAbove.le policy.scaleDownBelow := by
  cases document with
  | dict policy =>
      simp only [check, fields]
      cases requireCount policy "min_replicas" with
      | error => rfl
      | ok minReplicas =>
          cases requireCount policy "max_replicas" with
          | error => rfl
          | ok maxReplicas =>
              cases hcounts : maxReplicas.lt minReplicas <;> cases requireMetric policy <;>
                cases requireNumber policy "scale_up_above" <;>
                  cases requireNumber policy "scale_down_below" <;>
                    simp [require, Except.toOption, bind, Except.bind, Option.filter_some, hcounts]
              rename_i metric scaleUpAbove scaleDownBelow
              cases scaleUpAbove.le scaleDownBelow <;> rfl
  | _ => rfl

theorem valid_of_fields {document : JsonValue} (hdoubles : HasDoubles document)
    {policy : Policy Number} (hfields : fields document = some policy) :
    (Valid policy.minReplicas ∧ isInt policy.minReplicas) ∧
      (Valid policy.maxReplicas ∧ isInt policy.maxReplicas) ∧
        Valid policy.scaleUpAbove ∧ Valid policy.scaleDownBelow := by
  cases document with
  | dict entries =>
      have hcount {field : String} {value : Number}
          (hvalue : (requireCount entries field).toOption = some value) :
          Valid value ∧ isInt value := by
        rw [requireCount_eq] at hvalue
        cases hfound : count? entries field with
        | none =>
            rw [hfound] at hvalue
            cases hvalue
        | some found =>
            rw [hfound] at hvalue
            cases hvalue
            obtain ⟨hnumber, hchecks⟩ := Option.filter_eq_some_iff.mp hfound
            obtain ⟨hint, hone⟩ := Bool.and_eq_true_iff.mp hchecks
            refine ⟨valid_of_number? hdoubles hnumber ?_, hint⟩
            exact le_of_one_le hint (Bool.not_eq_true' _ ▸ hone)
      have hthreshold {field : String} {value : Number}
          (hvalue : (requireNumber entries field).toOption = some value) : Valid value := by
        rw [requireNumber_eq] at hvalue
        cases hfound : threshold? entries field with
        | none =>
            rw [hfound] at hvalue
            cases hvalue
        | some found =>
            rw [hfound] at hvalue
            cases hvalue
            obtain ⟨hnumber, hzero⟩ := Option.filter_eq_some_iff.mp hfound
            exact valid_of_number? hdoubles hnumber hzero
      simp only [fields, Option.bind_eq_bind, Option.bind_eq_some_iff, Option.some.injEq] at hfields
      obtain ⟨minReplicas, hmin, maxReplicas, hmax, metric, -, up, hup, down, hdown, rfl⟩ := hfields
      exact ⟨hcount hmin, hcount hmax, hthreshold hup, hthreshold hdown⟩
  | _ => cases hfields

/-- What the controller and the API make of a policy whose fields are valid one by one. -/
theorem check_eq_ok_iff {document : JsonValue} {policy : Policy Number} :
    check document = .ok policy ↔ fields document = some policy ∧
      policy.maxReplicas.lt policy.minReplicas = false ∧
        policy.scaleUpAbove.le policy.scaleDownBelow = false := by
  have hok : check document = .ok policy ↔ (check document).toOption = some policy := by
    cases check document <;> simp [Except.toOption]
  rw [hok, toOption_check, Option.filter_eq_some_iff, Bool.and_eq_true_iff, Bool.not_eq_true',
    Bool.not_eq_true']

theorem issues_eq_nil_iff {policy : Policy FloatValue} : issues policy = [] ↔
    policy.maxReplicas.lt policy.minReplicas = false ∧
      (Number.float policy.scaleUpAbove).le (.float policy.scaleDownBelow) = false := by
  unfold issues
  split_ifs with hcounts hthresholds hthresholds <;> simp_all

theorem safeParse_parsed_eq_some_iff {document : JsonValue} {shown : Policy FloatValue} :
    safeParse (parsed document) = some shown ↔ ∃ policy, fields document = some policy ∧
      (isInteger (double policy.minReplicas) ∧ isInteger (double policy.maxReplicas)) ∧
        issues (policy.map double) = [] ∧ policy.map double = shown := by
  rw [safeParse, Option.filter_eq_some_iff, zodObject_parsed, Option.map_eq_some_iff]
  constructor
  · rintro ⟨⟨policy, hfiltered, rfl⟩, hissues⟩
    obtain ⟨hfields, hintegers⟩ := Option.filter_eq_some_iff.mp hfiltered
    exact ⟨policy, hfields, Bool.and_eq_true_iff.mp hintegers, List.isEmpty_iff.mp hissues, rfl⟩
  · rintro ⟨policy, hfields, hintegers, hissues, rfl⟩
    refine ⟨⟨policy, ?_, rfl⟩, List.isEmpty_iff.mpr hissues⟩
    exact Option.filter_eq_some_iff.mpr ⟨hfields, Bool.and_eq_true_iff.mpr hintegers⟩

theorem policyError_eq_none_iff {document : JsonValue} :
    policyError document = none ↔ ∃ policy, check document = .ok policy := by
  unfold policyError
  cases check document <;> simp

theorem agree_iff_kept {document : Document} {policy : Policy Number}
    (hfields : fields document.value = some policy) : Agree document ↔ Kept policy := by
  obtain ⟨⟨hmin, hminInt⟩, ⟨hmax, hmaxInt⟩, hup, hdown⟩ := valid_of_fields document.doubles hfields
  have hthresholds : policy.scaleUpAbove.le policy.scaleDownBelow =
      !policy.scaleDownBelow.lt policy.scaleUpAbove :=
    le_eq_not_lt hup.exact_ne_nan hdown.exact_ne_nan
  have hrounded : (Number.float (double policy.scaleUpAbove)).le
      (.float (double policy.scaleDownBelow)) =
        !(double policy.scaleDownBelow).lt (double policy.scaleUpAbove) :=
    le_eq_not_lt hup.double_ne_nan hdown.double_ne_nan
  have hcheck : (∃ checked, check document.value = .ok checked) ↔
      policy.maxReplicas.lt policy.minReplicas = false ∧
        policy.scaleDownBelow.lt policy.scaleUpAbove = true := by
    simp only [check_eq_ok_iff, hfields, Option.some.injEq, hthresholds, Bool.not_eq_false',
      exists_eq_left']
  have hparse : (∃ shown, safeParse (parsed document.value) = some shown) ↔
      (isInteger (double policy.minReplicas) ∧ isInteger (double policy.maxReplicas)) ∧
        (double policy.maxReplicas).lt (double policy.minReplicas) = false ∧
          (double policy.scaleDownBelow).lt (double policy.scaleUpAbove) = true := by
    simp only [safeParse_parsed_eq_some_iff, hfields, Option.some.injEq, exists_eq_left',
      issues_eq_nil_iff, Policy.map, hrounded, Bool.not_eq_false']
    exact ⟨fun ⟨_, hintegers, hissues, _⟩ => ⟨hintegers, hissues⟩,
      fun ⟨hintegers, hissues⟩ => ⟨_, hintegers, hissues, rfl⟩⟩
  have hcounts := @lt_of_double_lt policy.maxReplicas policy.minReplicas hmax hmin
  have horder := @lt_of_double_lt policy.scaleDownBelow policy.scaleUpAbove hdown hup
  have hminExact : double policy.minReplicas = policy.minReplicas.exact →
      isInteger (double policy.minReplicas) := fun hexact => by
    rw [hexact, ← isInt_eq]
    exact hminInt
  have hmaxExact : double policy.maxReplicas = policy.maxReplicas.exact →
      isInteger (double policy.maxReplicas) := fun hexact => by
    rw [hexact, ← isInt_eq]
    exact hmaxInt
  have haccepted : policyError document.value = none ↔
      policy.maxReplicas.lt policy.minReplicas = false ∧
        policy.scaleDownBelow.lt policy.scaleUpAbove = true := policyError_eq_none_iff.trans hcheck
  unfold Kept
  constructor
  · intro hagree
    have hboth := haccepted.symm.trans (hagree.accepted.trans
      (Option.isSome_iff_exists.trans hparse))
    split_ifs with hmore
    · intro hlt hminInteger hmaxInteger
      by_contra hnot
      have hless := (hboth.mpr ⟨⟨hminInteger, hmaxInteger⟩, Bool.eq_false_iff.mpr hnot, hlt⟩).1
      rw [hmore] at hless
      cases hless
    · intro hlt
      have hfalse := Bool.eq_false_iff.mpr hmore
      have hshown := hboth.mp ⟨hfalse, hlt⟩
      have hsame := hagree.sameCounts policy
        (check_eq_ok_iff.mpr ⟨hfields, hfalse, by rw [hthresholds, hlt]; rfl⟩) (policy.map double)
        (safeParse_parsed_eq_some_iff.mpr ⟨policy, hfields, hshown.1, issues_eq_nil_iff.mpr
          ⟨hshown.2.1, by rw [Policy.map, hrounded, hshown.2.2]; rfl⟩, rfl⟩)
      exact ⟨hsame.1.symm, hsame.2.symm, hshown.2.2⟩
  · intro hkept
    split_ifs at hkept with hmore
    · have hneither : ¬ ((isInteger (double policy.minReplicas) ∧
          isInteger (double policy.maxReplicas)) ∧
            (double policy.maxReplicas).lt (double policy.minReplicas) = false ∧
              (double policy.scaleDownBelow).lt (double policy.scaleUpAbove) = true) := by
        rintro ⟨⟨hminInteger, hmaxInteger⟩, hless, hlt⟩
        rw [hkept hlt hminInteger hmaxInteger] at hless
        cases hless
      constructor
      · rw [haccepted, Option.isSome_iff_exists, hparse, hmore]
        exact ⟨fun hless => (nomatch hless.1), fun hshown => absurd hshown hneither⟩
      · intro checked hchecked
        have hless := (hcheck.mp ⟨checked, hchecked⟩).1
        rw [hmore] at hless
        cases hless
    · have hfalse := Bool.eq_false_iff.mpr hmore
      have hless : (double policy.maxReplicas).lt (double policy.minReplicas) = false :=
        Bool.eq_false_iff.mpr fun hlt => hmore (hcounts hlt)
      constructor
      · rw [haccepted, Option.isSome_iff_exists, hparse]
        constructor
        · rintro ⟨-, hlt⟩
          obtain ⟨hminSame, hmaxSame, hrounds⟩ := hkept hlt
          exact ⟨⟨hminExact hminSame, hmaxExact hmaxSame⟩, hless, hrounds⟩
        · rintro ⟨-, -, hlt⟩
          exact ⟨hfalse, horder hlt⟩
      · intro checked hchecked shown hshown
        obtain ⟨hsome, -, hlt⟩ := check_eq_ok_iff.mp hchecked
        obtain ⟨other, hother, -, -, rfl⟩ := safeParse_parsed_eq_some_iff.mp hshown
        cases hfields.symm.trans hsome
        cases hfields.symm.trans hother
        rw [hthresholds, Bool.not_eq_false'] at hlt
        obtain ⟨hminSame, hmaxSame, -⟩ := hkept hlt
        exact ⟨hminSame.symm, hmaxSame.symm⟩

/-- The controller and the dashboard agree on a document exactly where rounding to doubles changes
nothing that decides on it. -/
theorem policiesAgree_iff (document : Document) : Agree document ↔ HoldsWhen document := by
  unfold HoldsWhen
  cases hfields : fields document.value with
  | none =>
      refine ⟨fun _ policy hpolicy => (nomatch hpolicy), fun _ => ⟨?_, ?_⟩⟩
      · rw [policyError_eq_none_iff, Option.isSome_iff_exists]
        constructor
        · rintro ⟨policy, hchecked⟩
          cases hfields.symm.trans (check_eq_ok_iff.mp hchecked).1
        · rintro ⟨shown, hshown⟩
          obtain ⟨policy, hsome, -⟩ := safeParse_parsed_eq_some_iff.mp hshown
          cases hfields.symm.trans hsome
      · intro policy hchecked
        cases hfields.symm.trans (check_eq_ok_iff.mp hchecked).1
  | some policy =>
      rw [agree_iff_kept hfields]
      refine ⟨fun hkept other hother => ?_, fun hkept => hkept policy rfl⟩
      cases hother
      exact hkept

/-- 2^53 + 1 replicas at least and 2^53 at most, one number for the dashboard. -/
def unequalCounts : Document where
  value := .dict [(ofString "min_replicas", .int 9007199254740993),
    (ofString "max_replicas", .int 9007199254740992),
    (ofString "metric", .str (ofString "queue_length_total")), (ofString "scale_up_above", .int 3),
    (ofString "scale_down_below", .int 1)]
  doubles := ⟨trivial, trivial, trivial, trivial, trivial, trivial⟩

theorem not_agree_unequalCounts : ¬ ∀ document, Agree document := by
  intro hagree
  have hfields : fields unequalCounts.value = some
      { minReplicas := .int 9007199254740993, maxReplicas := .int 9007199254740992,
        metric := ofString "queue_length_total", scaleUpAbove := .int 3,
        scaleDownBelow := .int 1 } := rfl
  have hkept := (agree_iff_kept hfields).mp (hagree unequalCounts)
  have hmin : double (.int 9007199254740993) = .finite 9007199254740992 := by decide +kernel
  have hmax : double (.int 9007199254740992) = .finite 9007199254740992 := by decide +kernel
  have hmore : (Number.int 9007199254740992).lt (.int 9007199254740993) = true := by decide +kernel
  have hthresholds : (double (.int 1)).lt (double (.int 3)) = true := by decide +kernel
  rw [Kept, if_pos hmore, hmin, hmax] at hkept
  have hless : (FloatValue.finite 9007199254740992).lt (.finite 9007199254740992) = true :=
    hkept hthresholds (by decide +kernel) (by decide +kernel)
  exact absurd hless (by decide +kernel)

end CanyonOS.ScalingDocument
