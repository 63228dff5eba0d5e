import Mathlib
import CanyonOS.Lib.Numbers
import CanyonOS.Gateway.Proxy

/-!
# The cap of a request

`route` refuses a call that an agent may not make, and one that could cost more than the cap the
agent has in llms.yaml: the price of the body's tokens and of all output tokens it may use.
-/

namespace CanyonOS.Gateway.Routing

open CodePoints

/-! ### The cost -/

/-- In USD per million tokens, as the price table has them. -/
structure TokenPrices where
  input : Number
  output : Number
  cacheRead : Number
  cacheWrite : Number

/-- What `json.loads` makes of a body that is a JSON object. -/
abbrev Payload := List (CodePoints × JsonValue)

/-- `payload.get`, with `None` for a missing key. -/
def Payload.value (payload : Payload) (key : String) : JsonValue :=
  (JsonValue.get payload (ofString key)).getD .null

def orElse (left right : JsonValue) : JsonValue :=
  if left.isTruthy then left else right

/-- `_requested_max_tokens`; none where `inferenceConfig` has no `get`. -/
def requestedMaxTokens (payload : Payload) : Option JsonValue :=
  let first := orElse (payload.value "max_tokens")
    (orElse (payload.value "max_completion_tokens") (payload.value "max_output_tokens"))
  if first.isTruthy then some first
  else
    match orElse (payload.value "inferenceConfig") (.dict []) with
    | .dict config => some (Payload.value config "maxTokens")
    | _ => none

/-- An entry of llms.yaml that passed `_validate_priced_entry`. -/
structure Llm where
  name : CodePoints
  modelId : CodePoints
  maxTokens : Number
  /-- where it has the key, the cap of each agent -/
  agents : Option (List (CodePoints × Option Number))

structure Body where
  length : ℕ
  /-- what `json.loads` does with it -/
  json : JsonValue.Loaded

section Cost

variable (round : ℚ → FloatValue)

/-- `compute_token_cost` of a call with no cached tokens; none where Python raises. -/
def computeTokenCost (prices : TokenPrices) (input output : Number) : Option Number := do
  let uncached ← (← input.sub round (.int 0)).sub round (.int 0)
  let cost ← uncached.mul round prices.input
  let cost ← cost.add round (← (Number.int 0).mul round prices.cacheRead)
  let cost ← cost.add round (← (Number.int 0).mul round prices.cacheWrite)
  let cost ← cost.add round (← output.mul round prices.output)
  cost.divBy round 1000000

/-- At `BYTES_PER_TOKEN`. -/
def inputTokens (length : ℕ) : Number :=
  .float (round (length / 4))

/-- `worst_case_cost` of a JSON object; none where it raises something else than `ValueError`. -/
def worstCaseCost (prices : TokenPrices) (llm : Llm) (length : ℕ) (payload : Payload) :
    Option Number := do
  let requested ← requestedMaxTokens payload
  -- a text or a list, repeated or not, raises here or when it is priced
  let tokens ← if requested.isTruthy then JsonValue.asNumber requested else some llm.maxTokens
  let count ← JsonValue.asNumber (orElse (payload.value "n") (.int 1))
  computeTokenCost round prices (inputTokens round length) (← tokens.mul round count)

end Cost

/-! ### The route -/

inductive Denial where
  | notLoaded
  | notAllowed (llm : CodePoints)
  | noPrice (llm : CodePoints)
  | notObject (llm : CodePoints)
  | overCap (llm : CodePoints) (cost cap : Number)
  deriving DecidableEq

inductive Outcome where
  | letThrough
  | refused (denial : Denial)
  | raised
  deriving DecidableEq

structure Config where
  agentName : CodePoints
  llms : Option (List (CodePoints × Llm))
  /-- `pricing.token_prices` at the provider that serves the call -/
  tokenPrices : CodePoints → Option TokenPrices
  /-- to the nearest double -/
  round : ℚ → FloatValue

def routeCapped (gateway : Config) (llm : Llm) (cap : Number) (body : Body) : Outcome :=
  match gateway.tokenPrices (Proxy.normalizeModelId llm.modelId) with
  | none => .refused (.noPrice llm.name)
  | some prices =>
      match body.json with
      | .value (.dict payload) =>
          match worstCaseCost gateway.round prices llm body.length payload with
          | none => .raised
          | some cost => if cap.lt cost then .refused (.overCap llm.name cost cap) else .letThrough
      | .recursionError => .raised
      | _ => .refused (.notObject llm.name)

def route (gateway : Config) (modelId : CodePoints) (body : Body) : Outcome :=
  match gateway.llms with
  | none => .refused .notLoaded
  | some llms =>
      match llms.lookup (Proxy.normalizeModelId modelId) with
      | none => .letThrough
      | some llm =>
          match llm.agents with
          | none => .letThrough
          | some agents =>
              match agents.lookup gateway.agentName with
              | none => .refused (.notAllowed llm.name)
              | some none => .letThrough
              | some (some cap) => routeCapped gateway llm cap body

/-! ### What a body asks for -/

/-- The body is this object, even where it is nested too deep to be read. -/
def Body.Is (body : Body) (payload : Payload) : Prop :=
  body.json = .value (.dict payload) ∨ body.json = .recursionError

/-- A key that is set: present, and not null. -/
def setting (payload : Payload) (key : String) : Option JsonValue :=
  match JsonValue.get payload (ofString key) with
  | some .null => none
  | value => value

/-- The limits that are set, in the order `_requested_max_tokens` looks at them. -/
def limits (payload : Payload) : List JsonValue :=
  ["max_tokens", "max_completion_tokens", "max_output_tokens"].filterMap (setting payload) ++
    match setting payload "inferenceConfig" with
    | some (.dict config) => (setting config "maxTokens").toList
    | _ => []

/-- The number that a value is, where it is a positive one. -/
def positive? : JsonValue → Option Number
  | .int value => if 0 < value then some (.int value) else none
  | .float value => if (FloatValue.finite 0).lt value then some (.float value) else none
  | _ => none

/-- All limits and the number of choices, where they are set, are positive numbers. -/
def AllPositive (payload : Payload) : Prop :=
  (∀ limit ∈ limits payload, (positive? limit).isSome) ∧
    ∀ count ∈ setting payload "n", (positive? count).isSome

/-- The choices a body asks for; one if it does not say. -/
def choices (payload : Payload) : Number :=
  ((setting payload "n").bind positive?).getD (.int 1)

/-- The price of the estimated input tokens and of a limit for each choice. -/
def price (round : ℚ → FloatValue) (prices : TokenPrices) (length : ℕ) (limit count : Number) :
    Option Number :=
  (limit.mul round count).bind fun output =>
    computeTokenCost round prices (inputTokens round length) output

/-- A call let through costs at most the cap with any of its limits, and one whose limits or
choices are not positive numbers is refused. -/
structure CapHolds (gateway : Config) (prices : TokenPrices) (cap : Number) (length : ℕ)
    (payload : Payload) (outcome : Outcome) : Prop where
  bounded : outcome = .letThrough → ∀ limit ∈ limits payload, ∀ number ∈ positive? limit,
    ∃ cost ∈ price gateway.round prices length number (choices payload), cost.le cap
  refused : ¬ AllPositive payload → ∃ denial, outcome = .refused denial

/-! ### What the code counts -/

/-- The first limit that is not zero, false or empty, and the entry's where there is none. -/
def countedLimit (llm : Llm) (payload : Payload) : Option Number :=
  match (limits payload).find? JsonValue.isTruthy with
  | some limit => JsonValue.asNumber limit
  | none =>
      match orElse (payload.value "inferenceConfig") (.dict []) with
      | .dict _ => some llm.maxTokens
      | _ => none

def countedChoices (payload : Payload) : Option Number :=
  JsonValue.asNumber (orElse (payload.value "n") (.int 1))

section Counted

variable {payload : Payload}

theorem orElse_of_truthy {value : JsonValue} (htruthy : value.isTruthy = true) (other : JsonValue) :
    orElse value other = value :=
  if_pos htruthy

theorem orElse_of_falsy {value : JsonValue} (hfalsy : value.isTruthy = false) (other : JsonValue) :
    orElse value other = other :=
  if_neg (by simp [hfalsy])

/-- A truthy value is set. -/
theorem find?_setting (payload : Payload) (key : String) :
    (setting payload key).toList.find? JsonValue.isTruthy =
      if (payload.value key).isTruthy then some (payload.value key) else none := by
  rw [setting, Payload.value]
  cases hget : JsonValue.get payload (ofString key) with
  | none => simp [JsonValue.isTruthy]
  | some value => cases value <;> simp [JsonValue.isTruthy, List.find?_singleton]

theorem find?_config (payload : Payload) :
    (match setting payload "inferenceConfig" with
      | some (.dict config) => (setting config "maxTokens").toList
      | _ => []).find? JsonValue.isTruthy =
      match orElse (payload.value "inferenceConfig") (.dict []) with
      | .dict config =>
          if (Payload.value config "maxTokens").isTruthy then
            some (Payload.value config "maxTokens")
          else none
      | _ => none := by
  have hempty : Payload.value [] "maxTokens" = .null := rfl
  rw [setting, Payload.value]
  cases hget : JsonValue.get payload (ofString "inferenceConfig") with
  | none => simp [orElse, JsonValue.isTruthy, hempty]
  | some value =>
      cases value with
      | dict config =>
          cases config with
          | nil => exact find?_setting [] "maxTokens"
          | cons entry entries => exact find?_setting (entry :: entries) "maxTokens"
      | null => simp [orElse, JsonValue.isTruthy, hempty]
      | bool value => cases value <;> simp [orElse, JsonValue.isTruthy, hempty]
      | int value =>
          by_cases hzero : value = 0 <;> simp [orElse, JsonValue.isTruthy, hempty, hzero]
      | float value =>
          by_cases hzero : value = .finite 0 <;> simp [orElse, JsonValue.isTruthy, hempty, hzero]
      | str value =>
          by_cases hnil : value = [] <;> simp [orElse, JsonValue.isTruthy, hempty, hnil]
      | list items =>
          cases items <;> simp [orElse, JsonValue.isTruthy, hempty]

/-- `_requested_max_tokens` returns the first limit that counts as true. -/
theorem requestedMaxTokens_eq (payload : Payload) :
    requestedMaxTokens payload =
      match (limits payload).find? JsonValue.isTruthy with
      | some limit => some limit
      | none =>
          match orElse (payload.value "inferenceConfig") (.dict []) with
          | .dict config => some (Payload.value config "maxTokens")
          | _ => none := by
  have hkeys : ["max_tokens", "max_completion_tokens", "max_output_tokens"].filterMap
      (setting payload) = (setting payload "max_tokens").toList ++
        ((setting payload "max_completion_tokens").toList ++
          (setting payload "max_output_tokens").toList) := by
    simp only [List.filterMap_cons, List.filterMap_nil]
    cases setting payload "max_tokens" <;> cases setting payload "max_completion_tokens" <;>
      cases setting payload "max_output_tokens" <;> rfl
  rw [limits, hkeys, List.find?_append, List.find?_append, List.find?_append, find?_setting,
    find?_setting, find?_setting, find?_config, requestedMaxTokens]
  by_cases hfirst : (payload.value "max_tokens").isTruthy
  · simp [orElse, hfirst]
  by_cases hsecond : (payload.value "max_completion_tokens").isTruthy
  · simp [orElse, hfirst, hsecond]
  by_cases hthird : (payload.value "max_output_tokens").isTruthy
  · simp [orElse, hfirst, hsecond, hthird]
  simp only [orElse, hfirst, hsecond, hthird, Bool.false_eq_true, if_false, Option.none_or]
  split
  · next config _ =>
      by_cases htruthy : (Payload.value config "maxTokens").isTruthy
      · simp only [htruthy, if_true]
      · simp only [htruthy, Bool.false_eq_true, if_false]
  · rfl

theorem worstCaseCost_eq (round : ℚ → FloatValue) (prices : TokenPrices) (llm : Llm) (length : ℕ) :
    worstCaseCost round prices llm length payload =
      (countedLimit llm payload).bind fun limit =>
        (countedChoices payload).bind (price round prices length limit) := by
  have htokens : ((requestedMaxTokens payload).bind fun requested =>
      if requested.isTruthy then JsonValue.asNumber requested else some llm.maxTokens) =
        countedLimit llm payload := by
    rw [requestedMaxTokens_eq, countedLimit]
    cases hfind : (limits payload).find? JsonValue.isTruthy with
    | some limit => simp [List.find?_some hfind]
    | none =>
        have hconfig := find?_config payload
        rw [limits, List.find?_append, Option.or_eq_none_iff] at hfind
        rw [hfind.2] at hconfig
        cases hvalue : orElse (payload.value "inferenceConfig") (.dict []) with
        | dict config =>
            have hfalsy : (Payload.value config "maxTokens").isTruthy = false := by
              rw [hvalue] at hconfig
              by_contra htruthy
              simp [htruthy] at hconfig
            simp [hfalsy]
        | _ => rfl
  rw [worstCaseCost, ← htokens]
  cases requestedMaxTokens payload with
  | none => rfl
  | some requested =>
      simp only [Option.bind_some, bind]
      split_ifs <;> rfl

end Counted

/-! ### When the cap holds -/

section Cap

variable {gateway : Config} {llms : List (CodePoints × Llm)} {llm : Llm}
  {agents : List (CodePoints × Option Number)} {cap : Number} {prices : TokenPrices} {body : Body}
  {payload : Payload}

theorem isTruthy_of_positive? {value : JsonValue} (hpositive : (positive? value).isSome) :
    value.isTruthy = true := by
  cases value with
  | int value =>
      have hlt : 0 < value := by
        by_contra hle
        simp [positive?, hle] at hpositive
      simp only [JsonValue.isTruthy, decide_eq_true_eq]
      omega
  | float value =>
      cases value with
      | finite value =>
          have hlt : 0 < value := by
            by_contra hle
            simp [positive?, FloatValue.lt, hle] at hpositive
          simpa [JsonValue.isTruthy] using ne_of_gt hlt
      | infinity negative => simp [JsonValue.isTruthy]
      | nan => simp [JsonValue.isTruthy]
  | null => simp [positive?] at hpositive
  | bool value => simp [positive?] at hpositive
  | str value => simp [positive?] at hpositive
  | list items => simp [positive?] at hpositive
  | dict items => simp [positive?] at hpositive

theorem asNumber_of_positive? {value : JsonValue} {number : Number}
    (hpositive : positive? value = some number) : JsonValue.asNumber value = some number := by
  cases value with
  | int value =>
      rw [positive?] at hpositive
      split_ifs at hpositive
      exact hpositive
  | float value =>
      rw [positive?] at hpositive
      split_ifs at hpositive
      exact hpositive
  | null => cases hpositive
  | bool value => cases hpositive
  | str value => cases hpositive
  | list items => cases hpositive
  | dict items => cases hpositive

theorem countedChoices_of_positive (hcount : ∀ count ∈ setting payload "n",
    (positive? count).isSome) : countedChoices payload = some (choices payload) := by
  rw [countedChoices, choices, Payload.value]
  rw [setting] at hcount ⊢
  cases hget : JsonValue.get payload (ofString "n") with
  | none => rfl
  | some value =>
      by_cases hnull : value = .null
      · subst hnull
        rfl
      · have hset : (match some value with | some .null => none | value => value) = some value := by
          cases value <;> first | rfl | exact absurd rfl hnull
        rw [hget, hset] at hcount
        obtain ⟨number, hnumber⟩ := Option.isSome_iff_exists.mp (hcount value rfl)
        have htruthy : value.isTruthy = true := isTruthy_of_positive? (by simp [hnumber])
        rw [hset, Option.getD_some, orElse_of_truthy htruthy, asNumber_of_positive? hnumber,
          Option.bind_some, hnumber, Option.getD_some]

theorem countedLimit_of_positive {first : JsonValue} {rest : List JsonValue} {number : Number}
    (hlimits : limits payload = first :: rest) (hnumber : positive? first = some number) :
    countedLimit llm payload = some number := by
  have htruthy : first.isTruthy = true := isTruthy_of_positive? (by simp [hnumber])
  rw [countedLimit, hlimits, List.find?_cons_of_pos htruthy]
  exact asNumber_of_positive? hnumber

theorem capHolds_of_positive {length : ℕ} {outcome : Outcome} (hpositive : AllPositive payload) :
    CapHolds gateway prices cap length payload outcome ↔
      (outcome = .letThrough → ∀ limit ∈ limits payload, ∀ number ∈ positive? limit,
        ∃ cost ∈ price gateway.round prices length number (choices payload), cost.le cap) := by
  constructor
  · intro hholds
    exact hholds.bounded
  · intro hbounded
    exact ⟨hbounded, fun hnot => absurd hpositive hnot⟩

theorem capHolds_of_not_positive {length : ℕ} {outcome : Outcome} (hnot : ¬ AllPositive payload) :
    CapHolds gateway prices cap length payload outcome ↔
      ∃ denial, outcome = .refused denial := by
  constructor
  · intro hholds
    exact hholds.refused hnot
  · rintro ⟨denial, rfl⟩
    exact ⟨(fun hthrough => nomatch hthrough), fun _ => ⟨denial, rfl⟩⟩

/-- The route of a call to a model with a cap and prices. -/
theorem route_eq {modelId : CodePoints} (hllms : gateway.llms = some llms)
    (hllm : llms.lookup (Proxy.normalizeModelId modelId) = some llm)
    (hagents : llm.agents = some agents)
    (hcap : agents.lookup gateway.agentName = some (some cap))
    (hprices : gateway.tokenPrices (Proxy.normalizeModelId llm.modelId) = some prices)
    (hbody : body.Is payload) :
    (body.json = .recursionError ∧ route gateway modelId body = .raised) ∨
      (body.json ≠ .recursionError ∧ route gateway modelId body =
        match worstCaseCost gateway.round prices llm body.length payload with
        | none => .raised
        | some cost =>
            if cap.lt cost then .refused (.overCap llm.name cost cap) else .letThrough) := by
  simp only [route, hllms, hllm, hagents, hcap, routeCapped, hprices]
  rcases hbody with hvalue | hdeep
  · exact .inr ⟨by simp [hvalue], by rw [hvalue]⟩
  · exact .inl ⟨hdeep, by rw [hdeep]⟩

/-- The cap holds of a body with positive numbers only if it cannot be read, is refused for its
first limit, or each of its limits is within the cap; of another body only if it is refused for
what the code counts. -/
theorem capHolds_iff {modelId : CodePoints} (hllms : gateway.llms = some llms)
    (hllm : llms.lookup (Proxy.normalizeModelId modelId) = some llm)
    (hagents : llm.agents = some agents)
    (hcap : agents.lookup gateway.agentName = some (some cap))
    (hprices : gateway.tokenPrices (Proxy.normalizeModelId llm.modelId) = some prices)
    (hbody : body.Is payload) :
    CapHolds gateway prices cap body.length payload (route gateway modelId body) ↔
      (AllPositive payload ∧ (body.json = .recursionError ∨
        (∀ first ∈ (limits payload).head?, ∀ number ∈ positive? first,
          ∀ cost ∈ price gateway.round prices body.length number (choices payload), cap.lt cost) ∨
        ∀ limit ∈ limits payload, ∀ number ∈ positive? limit,
          ∃ cost ∈ price gateway.round prices body.length number (choices payload), cost.le cap)) ∨
      (¬ AllPositive payload ∧ body.json ≠ .recursionError ∧
        ∃ limit ∈ countedLimit llm payload, ∃ count ∈ countedChoices payload,
          ∃ cost ∈ price gateway.round prices body.length limit count, cap.lt cost) := by
  obtain ⟨hdeep, hroute⟩ | ⟨hread, hroute⟩ := route_eq hllms hllm hagents hcap hprices hbody
  · rw [hroute]
    constructor
    · intro hholds
      by_cases hpositive : AllPositive payload
      · exact .inl ⟨hpositive, .inl hdeep⟩
      · obtain ⟨denial, hdenial⟩ := hholds.refused hpositive
        cases hdenial
    · rintro (⟨hpositive, -⟩ | ⟨-, hread, -⟩)
      · exact ⟨(fun hthrough => nomatch hthrough), fun hnot => absurd hpositive hnot⟩
      · exact absurd hdeep hread
  · rw [hroute, worstCaseCost_eq]
    by_cases hpositive : AllPositive payload
    · rw [capHolds_of_positive hpositive, countedChoices_of_positive hpositive.2]
      simp only [hpositive, hread, true_and, false_or, not_true_eq_false, false_and, or_false,
        Option.bind_some]
      cases hlimits : limits payload with
      | nil => simp
      | cons first rest =>
          have hfirst := hpositive.1 first (by simp [hlimits])
          obtain ⟨number, hnumber⟩ := Option.isSome_iff_exists.mp hfirst
          rw [countedLimit_of_positive hlimits hnumber, Option.bind_some]
          simp only [List.head?_cons, Option.mem_some_iff, forall_eq', hnumber]
          cases hcost : price gateway.round prices body.length number (choices payload) with
          | none => simp
          | some cost =>
              by_cases hover : cap.lt cost = true
              · simp [hover]
              · simp [hover]
    · rw [capHolds_of_not_positive hpositive]
      simp only [hpositive, hread, false_and, false_or, not_false_eq_true, true_and, ne_eq]
      cases countedLimit llm payload with
      | none => simp
      | some limit =>
          cases countedChoices payload with
          | none => simp
          | some count =>
              simp only [Option.bind_some, Option.mem_some_iff, exists_eq_left']
              cases price gateway.round prices body.length limit count with
              | none => simp
              | some cost =>
                  by_cases hover : cap.lt cost = true
                  · simp [hover]
                  · simp [hover]

end Cap

/-! ### Two limits -/

/-- 15.625 USD for a million tokens. -/
def flatPrices : TokenPrices where
  input := .float (.finite (125 / 8))
  output := .float (.finite (125 / 8))
  cacheRead := .float (.finite 0)
  cacheWrite := .float (.finite 0)

def halfDollar : Number :=
  .float (.finite (1 / 2))

def model : CodePoints :=
  ofString "gpt-4o"

/-- An agent with a cap of half a dollar, and sums so small that doubles have them all. -/
def capped : Config where
  agentName := ofString "planner"
  llms := some [(model,
    { name := model
      modelId := model
      maxTokens := .int 4096
      agents := some [(ofString "planner", some halfDollar)] })]
  tokenPrices _ := some flatPrices
  round := .finite

/-- 4000 bytes with some limits. -/
def bodyWith (limits : Payload) : Body where
  length := 4000
  json := .value (.dict limits)

def oneLimit : Payload :=
  [(ofString "max_tokens", .int 1000)]

theorem capHolds_oneLimit :
    CapHolds capped flatPrices halfDollar (bodyWith oneLimit).length oneLimit
      (route capped model (bodyWith oneLimit)) := by
  have hlimits : limits oneLimit = [.int 1000] := rfl
  have hprice : price capped.round flatPrices 4000 (.int 1000) (choices oneLimit) =
      some (.float (.finite (1 / 32))) := by decide +kernel
  have hcount : setting oneLimit "n" = none := rfl
  refine (capHolds_iff rfl rfl rfl rfl rfl (.inl rfl)).mpr (.inl ⟨⟨?_, ?_⟩, .inr (.inr ?_)⟩)
  · simp [hlimits, positive?]
  · simp [hcount]
  · intro limit hlimit number hnumber
    rw [hlimits, List.mem_singleton] at hlimit
    subst hlimit
    cases hnumber
    exact ⟨_, hprice, by decide +kernel⟩

def twoLimits : Payload :=
  [(ofString "max_tokens", .int 1000), (ofString "max_completion_tokens", .int 128000)]

/-- The cap is checked against the first limit only, while the second costs two dollars. -/
theorem not_capHolds_twoLimits :
    ¬ CapHolds capped flatPrices halfDollar 4000 twoLimits
      (route capped model (bodyWith twoLimits)) := by
  intro hholds
  have hthrough : route capped model (bodyWith twoLimits) = .letThrough := by decide +kernel
  have hlimits : limits twoLimits = [.int 1000, .int 128000] := rfl
  obtain ⟨cost, hcost, hle⟩ :=
    hholds.bounded hthrough (.int 128000) (by simp [hlimits]) (.int 128000) rfl
  have hprice : price capped.round flatPrices 4000 (.int 128000) (choices twoLimits) =
      some (.float (.finite (129 / 64))) := by decide +kernel
  rw [hprice] at hcost
  cases hcost
  exact absurd hle (by decide +kernel)

end CanyonOS.Gateway.Routing
