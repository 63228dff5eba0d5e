import Mathlib
import CanyonOS.Lib.EventStream
import CanyonOS.Lib.Numbers
import CanyonOS.Gateway.Pricing
import CanyonOS.Gateway.Proxy

/-!
# Recording a response

After each call `on_response` reads the usage from the provider's response and adds its counts to
the calling future in Redis, before `proxy_request` returns the response, and where a stream ends.
The usage is JSON that the provider chooses, and it is read outside of the `try` that keeps failures
of Redis from the agent.
-/

namespace CanyonOS.Gateway.Recording

open CodePoints Pricing Proxy

open EventStream (Bytes)

/-! ### A response -/

/-- How a stream ends; closed where the agent stops reading. -/
inductive Ending (Failure : Type) where
  | exhausted
  | closed
  | failed (failure : Failure)

structure Stream (Failure : Type) where
  chunks : List Bytes
  ending : Ending Failure

structure GatewayResponse (Failure : Type) where
  status : ℕ
  headers : List (CodePoints × CodePoints)
  content : Bytes
  stream : Option (Stream Failure)
  /-- what the stream has filled in by its end -/
  streamUsage : JsonValue
  streamError : Bool

/-- What the hooks know about a request. -/
structure Ctx where
  provider : Provider
  subpath : CodePoints
  headers : CodePoints → Option CodePoints
  model : Option CodePoints
  promptName : Option CodePoints
  promptVersion : Option CodePoints
  pricePrefix : Option CodePoints

/-- What Python raises; adding is a `TypeError`, or an `OverflowError` with an integer beyond all
doubles. -/
inductive Error where
  | attributeError
  | cannotAdd

/-! ### The usage -/

structure TokenUsage where
  inputTokens : JsonValue
  outputTokens : JsonValue
  totalTokens : JsonValue
  inputCacheTokens : JsonValue
  inputCacheWriteTokens : JsonValue

section Usage

variable (round : ℚ → FloatValue)

/-- `usage.get(key, 0)`. -/
def count (usage : Params) (key : String) : JsonValue :=
  (JsonValue.get usage (ofString key)).getD (.int 0)

def add (left right : JsonValue) : Except Error JsonValue :=
  match left.add round right with
  | some sum => .ok sum
  | none => .error .cannotAdd

def usageFromDict (usage : Params) : Except Error TokenUsage := do
  let cacheRead := count usage "cacheReadInputTokens"
  let cacheWrite := count usage "cacheWriteInputTokens"
  let input ← add round (count usage "inputTokens") cacheRead
  let input ← add round input cacheWrite
  return {
    inputTokens := input
    outputTokens := count usage "outputTokens"
    totalTokens := count usage "totalTokens"
    inputCacheTokens := cacheRead
    inputCacheWriteTokens := cacheWrite }

def usageFromAnthropicDict (usage : Params) : Except Error TokenUsage := do
  let cacheRead := count usage "cache_read_input_tokens"
  let cacheWrite := count usage "cache_creation_input_tokens"
  let input ← add round (count usage "input_tokens") cacheRead
  let input ← add round input cacheWrite
  let output := count usage "output_tokens"
  return {
    inputTokens := input
    outputTokens := output
    totalTokens := ← add round input output
    inputCacheTokens := cacheRead
    inputCacheWriteTokens := cacheWrite }

/-- `usage.get(key, usage.get(other, 0))`. -/
def countOr (usage : Params) (key other : String) : JsonValue :=
  (JsonValue.get usage (ofString key)).getD (count usage other)

/-- The value of the first of two keys that counts as true, else an empty object. -/
def details (usage : Params) (key other : String) : JsonValue :=
  let value := (JsonValue.get usage (ofString key)).getD .null
  let another := (JsonValue.get usage (ofString other)).getD .null
  if value.isTruthy then value else if another.isTruthy then another else .dict []

def usageFromOpenaiDict (usage : Params) : Except Error TokenUsage := do
  let input := countOr usage "prompt_tokens" "input_tokens"
  let output := countOr usage "completion_tokens" "output_tokens"
  let total ← add round input output
  match details usage "prompt_tokens_details" "input_tokens_details" with
  | .dict details =>
      return {
        inputTokens := input
        outputTokens := output
        totalTokens := (JsonValue.get usage (ofString "total_tokens")).getD total
        inputCacheTokens := count details "cached_tokens"
        inputCacheWriteTokens := .int 0 }
  | _ => throw .attributeError

inductive Schema where
  | converse
  | anthropic
  | openai

def Schema.parse : Schema → Params → Except Error TokenUsage
  | converse => usageFromDict round
  | anthropic => usageFromAnthropicDict round
  | openai => usageFromOpenaiDict round

/-- What each of the `_usage_from_*` makes of any value. -/
def Schema.usageFrom (schema : Schema) (usage : JsonValue) : Except Error (Option TokenUsage) :=
  if usage.isTruthy then
    match usage with
    | .dict usage => (schema.parse round usage).map some
    | _ => .error .attributeError
  else .ok none

def anthropicPrefix : CodePoints :=
  ofString "anthropic."

/-- The schema of a response, by its provider, operation and model. -/
def schemaOf (ctx : Ctx) (streamed : Bool) : Schema :=
  match ctx.provider with
  | .openai => .openai
  | .anthropic => .anthropic
  | .bedrock =>
      match bedrockModelAndOp ctx.subpath with
      | some (modelId, op) =>
          if !streamed ∧ op = ofString "invoke" ∧ anthropicPrefix <+: modelId then .anthropic
          else .converse
      | none => .converse

variable {Failure : Type}

/-- The usage of a response that is not streamed; `loads` decodes the bytes and reads them as JSON,
and gives none where one of the two raises. -/
def extractJsonUsage (loads : Bytes → Option JsonValue) (schema : Schema)
    (response : GatewayResponse Failure) : Except Error (Option TokenUsage) :=
  if response.status ≠ 200 then .ok none
  else
    match loads response.content with
    | none => .ok none
    | some (.dict data) =>
        schema.usageFrom round ((JsonValue.get data (ofString "usage")).getD .null)
    | some _ => .error .attributeError

def extractUsage (loads : Bytes → Option JsonValue) (ctx : Ctx)
    (response : GatewayResponse Failure) : Except Error (Option TokenUsage) :=
  let schema := schemaOf ctx response.stream.isSome
  if response.stream.isSome then schema.usageFrom round response.streamUsage
  else extractJsonUsage round loads schema response

end Usage

/-! ### Redis -/

inductive Command where
  | hset (key field value : CodePoints)
  | hincrby (key : CodePoints) (field : CountField) (amount : JsonValue)

/-- A client: what a command leaves, and whether it raises. -/
structure Redis (State : Type) where
  execute : State → Command → State × Bool

/-- The commands up to the first that raises. -/
def Redis.run {State : Type} (redis : Redis State) : State → List Command → State
  | state, [] => state
  | state, command :: commands =>
      match redis.execute state command with
      | (state, true) => state
      | (state, false) => redis.run state commands

def futureIdHeader : CodePoints :=
  ofString "x-canyonos-future-id"

def futureKey (futureId : CodePoints) : CodePoints :=
  ofString "future:" ++ futureId

def extractModelId (ctx : Ctx) : CodePoints :=
  match ctx.model with
  | some (char :: model) => char :: model
  | _ =>
      match ctx.provider, bedrockModelAndOp ctx.subpath with
      | .bedrock, some (char :: modelId, _) => char :: modelId
      | _, _ => unknown

def counts (isError : Bool) (usage : Option TokenUsage) : List (CountField × JsonValue) :=
  (.errors, .int (if isError then 1 else 0)) ::
    match usage with
    | some usage =>
        [(.inputTokenCount, usage.inputTokens), (.outputTokenCount, usage.outputTokens),
          (.tokenCount, usage.totalTokens), (.inputCacheTokens, usage.inputCacheTokens),
          (.inputCacheWriteTokens, usage.inputCacheWriteTokens)]
    | none => []

def commands (ctx : Ctx) (key : CodePoints) (counts : List (CountField × JsonValue)) :
    List Command :=
  [.hset key (ofString "model") (extractModelId ctx),
    .hset key (ofString "price_prefix") (ctx.pricePrefix.getD [])] ++
    (match ctx.promptVersion with
      | some (char :: version) =>
          [.hset key (ofString "prompt_name") (ctx.promptName.getD []),
            .hset key (ofString "prompt_version") (char :: version)]
      | _ => []) ++
    counts.map fun count => .hincrby key count.1 count.2

/-- Whether the call counts as an error. -/
def isError {Failure : Type} (response : GatewayResponse Failure) : Bool :=
  400 ≤ response.status || (response.stream.isSome && response.streamError)

section Hooks

variable {State Failure : Type} (round : ℚ → FloatValue) (loads : Bytes → Option JsonValue)

def onResponse (redis : Option (Redis State)) (ctx : Ctx) (response : GatewayResponse Failure)
    (state : State) : Except Error Unit × State :=
  match extractUsage round loads ctx response with
  | .error error => (.error error, state)
  | .ok usage =>
      match redis, ctx.headers futureIdHeader with
      | some redis, some (char :: futureId) =>
          (.ok (), redis.run state
            (commands ctx (futureKey (char :: futureId)) (counts (isError response) usage)))
      | _, _ => (.ok (), state)

/-! ### What the agent gets -/

inductive AgentBody (Failure : Type) where
  | whole (content : Bytes)
  /-- what is relayed, and how that ends: as the stream, or with what the hook raises -/
  | relayed (chunks : List Bytes) (ending : Except Error (Ending Failure))

structure Answer (Failure : Type) where
  status : ℕ
  headers : List (CodePoints × CodePoints)
  body : AgentBody Failure

/-- `yield from stream`, and `on_response` in its `finally`. -/
def relay (stream : Stream Failure) (hook : Except Error Unit) : AgentBody Failure :=
  .relayed stream.chunks (hook.map fun _ => stream.ending)

/-- `proxy_request`, from the response that the provider's `forward` returned. -/
def proxyRequest (redis : Option (Redis State)) (ctx : Ctx) (response : GatewayResponse Failure)
    (state : State) : Except Error (Answer Failure) × State :=
  let (hook, after) := onResponse round loads redis ctx response state
  match response.stream with
  | some stream => (.ok ⟨response.status, response.headers, relay stream hook⟩, after)
  | none => (hook.map fun _ => ⟨response.status, response.headers, .whole response.content⟩, after)

end Hooks

/-! ### What recording must do -/

/-- A count that a usage has, zero where it has none; none where it is no natural number. -/
def natural (usage : Params) (key : String) : Option ℕ :=
  match JsonValue.get usage (ofString key) with
  | none => some 0
  | some (.int (.ofNat value)) => some value
  | some _ => none

def naturalOr (usage : Params) (key other : String) : Option ℕ :=
  if (JsonValue.get usage (ofString key)).isSome then natural usage key else natural usage other

def totalOr (usage : Params) (sum : ℕ) : Option ℕ :=
  if (JsonValue.get usage (ofString "total_tokens")).isSome then natural usage "total_tokens"
  else some sum

/-- The counts of a well-formed usage. -/
def Schema.counts : Schema → Params → Option Usage
  | converse, usage => do
      let input ← natural usage "inputTokens"
      let cacheRead ← natural usage "cacheReadInputTokens"
      let cacheWrite ← natural usage "cacheWriteInputTokens"
      let output ← natural usage "outputTokens"
      let total ← natural usage "totalTokens"
      some ⟨input + cacheRead + cacheWrite, output, total, cacheRead, cacheWrite⟩
  | anthropic, usage => do
      let input ← natural usage "input_tokens"
      let cacheRead ← natural usage "cache_read_input_tokens"
      let cacheWrite ← natural usage "cache_creation_input_tokens"
      let output ← natural usage "output_tokens"
      some ⟨input + cacheRead + cacheWrite, output, input + cacheRead + cacheWrite + output,
        cacheRead, cacheWrite⟩
  | openai, usage => do
      let input ← naturalOr usage "prompt_tokens" "input_tokens"
      let output ← naturalOr usage "completion_tokens" "output_tokens"
      let total ← totalOr usage (input + output)
      match details usage "prompt_tokens_details" "input_tokens_details" with
      | .dict details =>
          let cached ← natural details "cached_tokens"
          some ⟨input, output, total, cached, 0⟩
      | _ => none

/-- What a call adds to each counter of its future. -/
def amounts (isError : Bool) (usage : Usage) : CountField → ℕ
  | .errors => if isError then 1 else 0
  | .inputTokenCount => usage.input
  | .outputTokenCount => usage.output
  | .tokenCount => usage.total
  | .inputCacheTokens => usage.cacheRead
  | .inputCacheWriteTokens => usage.cacheWrite

/-- The integers that Redis counts with. -/
def Counted (value : ℤ) : Prop :=
  -2 ^ 63 ≤ value ∧ value < 2 ^ 63

section Holds

variable {State Failure : Type}

/-- The client carries out the commands: `hincrby` adds an integer to the counter of a hash. -/
structure Executes (redis : Redis State) (count : State → CodePoints → CountField → ℤ) :
    Prop where
  hset : ∀ state key field value, ∃ after,
    redis.execute state (.hset key field value) = (after, false) ∧ count after = count state
  hincrby : ∀ state key field amount, Counted amount → Counted (count state key field + amount) →
    ∃ after, redis.execute state (.hincrby key field (.int amount)) = (after, false) ∧
      ∀ other counter, count after other counter =
        count state other counter + if other = key ∧ counter = field then amount else 0

/-- The value that a response gives as its usage. -/
def reported (loads : Bytes → Option JsonValue) (response : GatewayResponse Failure) :
    Option JsonValue :=
  if response.stream.isSome then some response.streamUsage
  else if response.status = 200 then
    match loads response.content with
    | some (.dict data) => some ((JsonValue.get data (ofString "usage")).getD .null)
    | _ => none
  else none

variable (round : ℚ → FloatValue) (loads : Bytes → Option JsonValue)

/-- The agent gets the response as it came, the hook raises nothing, and a well-formed usage is
counted. -/
structure RecordingHolds (redis : Option (Redis State)) (ctx : Ctx)
    (response : GatewayResponse Failure) (state : State) : Prop where
  silent : (onResponse round loads redis ctx response state).1 = .ok ()
  unchanged : (proxyRequest round loads redis ctx response state).1 =
    .ok ⟨response.status, response.headers,
      match response.stream with
      | some stream => .relayed stream.chunks (.ok stream.ending)
      | none => .whole response.content⟩
  counted : ∀ client ∈ redis, ∀ count, Executes client count →
    ∀ futureId ∈ ctx.headers futureIdHeader, futureId ≠ [] →
    ∀ entries, reported loads response = some (.dict entries) →
    ∀ usage ∈ (schemaOf ctx response.stream.isSome).counts entries,
    let added := amounts (isError response) usage
    (∀ field, -2 ^ 63 ≤ count state (futureKey futureId) field ∧
      count state (futureKey futureId) field + added field < 2 ^ 63 ∧ added field < 2 ^ 63) →
    ∀ field,
      count (proxyRequest round loads redis ctx response state).2 (futureKey futureId) field =
        count state (futureKey futureId) field + added field

/-- The sum of some values, one after the other. -/
def sum (first : JsonValue) (others : List JsonValue) : Option JsonValue :=
  others.foldlM (JsonValue.add round) first

/-- The counts that are summed can be added, and what should be an object of details is one. -/
def Schema.Addable : Schema → Params → Prop
  | converse, usage =>
      (sum round (count usage "inputTokens")
        [count usage "cacheReadInputTokens", count usage "cacheWriteInputTokens"]).isSome
  | anthropic, usage =>
      (sum round (count usage "input_tokens") [count usage "cache_read_input_tokens",
        count usage "cache_creation_input_tokens", count usage "output_tokens"]).isSome
  | openai, usage =>
      (sum round (countOr usage "prompt_tokens" "input_tokens")
        [countOr usage "completion_tokens" "output_tokens"]).isSome ∧
      ∃ entries, details usage "prompt_tokens_details" "input_tokens_details" = .dict entries

/-- A whole response with status 200 is no JSON or an object, and the usage that is reported, where
it counts as true, an object whose counts can be added. -/
@[mk_iff]
structure Readable (ctx : Ctx) (response : GatewayResponse Failure) : Prop where
  body : response.stream = none → response.status = 200 →
    ∀ data ∈ loads response.content, ∃ entries, data = .dict entries
  usage : ∀ usage ∈ reported loads response, usage.isTruthy →
    ∃ entries, usage = .dict entries ∧
      (schemaOf ctx response.stream.isSome).Addable round entries

end Holds

/-! ### When the hook raises -/

section Silent

variable {State Failure : Type} {round : ℚ → FloatValue} {loads : Bytes → Option JsonValue}
  {redis : Option (Redis State)} {ctx : Ctx} {response : GatewayResponse Failure} {state : State}

theorem exists_add_eq_ok_iff {left right : JsonValue} {Result : Type}
    {next : JsonValue → Except Error Result} :
    (∃ result, (add round left right >>= next) = .ok result) ↔
      ∃ sum, left.add round right = some sum ∧ ∃ result, next sum = .ok result := by
  unfold add
  cases left.add round right with
  | none => exact iff_of_false (by rintro ⟨_, ⟨⟩⟩) (by simp)
  | some sum =>
      constructor
      · intro hnext
        exact ⟨sum, rfl, hnext⟩
      · rintro ⟨_, ⟨⟩, hnext⟩
        exact hnext

theorem isSome_sum_cons_iff {first second : JsonValue} {others : List JsonValue} :
    (sum round first (second :: others)).isSome ↔
      ∃ total, first.add round second = some total ∧ (sum round total others).isSome := by
  rw [sum, List.foldlM_cons]
  cases first.add round second with
  | none => exact iff_of_false (by simp [bind]) (by simp)
  | some total =>
      constructor
      · intro hsum
        exact ⟨total, rfl, hsum⟩
      · rintro ⟨_, ⟨⟩, hsum⟩
        exact hsum

theorem isSome_sum_nil (value : JsonValue) : (sum round value []).isSome :=
  rfl

theorem exists_pure_eq_ok {Result : Type} (value : Result) :
    ∃ result, (pure value : Except Error Result) = .ok result :=
  ⟨value, rfl⟩

/-- A schema reads an object of counts exactly when it can add those it sums. -/
theorem exists_parse_iff (schema : Schema) (entries : Params) :
    (∃ usage, schema.parse round entries = .ok usage) ↔ schema.Addable round entries := by
  cases schema with
  | converse =>
      rw [Schema.parse, usageFromDict, Schema.Addable]
      simp only [exists_add_eq_ok_iff, isSome_sum_cons_iff, isSome_sum_nil, exists_pure_eq_ok]
  | anthropic =>
      rw [Schema.parse, usageFromAnthropicDict, Schema.Addable]
      simp only [exists_add_eq_ok_iff, isSome_sum_cons_iff, isSome_sum_nil, exists_pure_eq_ok]
  | openai =>
      rw [Schema.parse, usageFromOpenaiDict, Schema.Addable]
      simp only [exists_add_eq_ok_iff, isSome_sum_cons_iff, isSome_sum_nil]
      rw [← exists_and_right]
      refine exists_congr fun total => ?_
      rw [and_true]
      refine and_congr_right fun _ => ?_
      cases details entries "prompt_tokens_details" "input_tokens_details" with
      | dict entries => simp only [exists_pure_eq_ok, JsonValue.dict.injEq, exists_eq']
      | _ => exact iff_of_false (by rintro ⟨_, ⟨⟩⟩) (by simp)

/-- What is read of a value that is reported, if any is. -/
theorem exists_usageFrom_iff (schema : Schema) (value : JsonValue) :
    (∃ usage, schema.usageFrom round value = .ok usage) ↔
      (value.isTruthy → ∃ entries, value = .dict entries ∧ schema.Addable round entries) := by
  unfold Schema.usageFrom
  split_ifs with htruthy
  · cases value with
    | dict entries =>
        simp only [htruthy, true_imp_iff, JsonValue.dict.injEq, exists_eq_left', ← exists_parse_iff]
        cases schema.parse round entries with
        | error error => exact iff_of_false (by rintro ⟨_, ⟨⟩⟩) (by rintro ⟨_, ⟨⟩⟩)
        | ok usage => exact iff_of_true ⟨_, rfl⟩ ⟨_, rfl⟩
    | _ => exact iff_of_false (by rintro ⟨_, ⟨⟩⟩) (by simp [htruthy])
  · exact iff_of_true ⟨_, rfl⟩ fun hvalue => absurd hvalue htruthy

theorem exists_extractUsage_iff :
    (∃ usage, extractUsage round loads ctx response = .ok usage) ↔
      Readable round loads ctx response := by
  rw [readable_iff]
  unfold extractUsage reported
  cases hstream : response.stream with
  | some stream =>
      simp [exists_usageFrom_iff]
  | none =>
      unfold extractJsonUsage
      by_cases hstatus : response.status = 200
      · cases hloads : loads response.content with
        | none => simp [hstatus]
        | some data =>
            cases data with
            | dict data => simp [hstatus, exists_usageFrom_iff]
            | _ => simp [hstatus]
      · simp [hstatus]

theorem onResponse_fst : (onResponse round loads redis ctx response state).1 =
    (extractUsage round loads ctx response).map fun _ => () := by
  unfold onResponse
  cases extractUsage round loads ctx response with
  | error error => rfl
  | ok usage =>
      dsimp only [Except.map]
      split <;> rfl

theorem onResponse_fst_eq_ok_iff :
    (onResponse round loads redis ctx response state).1 = .ok () ↔
      Readable round loads ctx response := by
  rw [onResponse_fst, ← exists_extractUsage_iff]
  cases extractUsage round loads ctx response with
  | error error => exact iff_of_false (by rintro ⟨⟩) (by rintro ⟨_, ⟨⟩⟩)
  | ok usage => exact iff_of_true rfl ⟨usage, rfl⟩

end Silent

/-! ### What is counted -/

section Counted

variable {State Failure : Type} {round : ℚ → FloatValue} {loads : Bytes → Option JsonValue}
  {redis : Redis State} {count : State → CodePoints → CountField → ℤ} {state : State}
  {key : CodePoints} {entries : Params} {usage : Usage}

theorem count_of_natural {name : String} {value : ℕ} (hvalue : natural entries name = some value) :
    Recording.count entries name = .int value := by
  unfold natural at hvalue
  unfold Recording.count
  split at hvalue
  · next hget =>
      cases hvalue
      rw [hget]
      rfl
  · next hget =>
      cases hvalue
      rw [hget]
      rfl
  · cases hvalue

theorem get_of_natural {name : String} {value : ℕ} (default : JsonValue)
    (hsome : (JsonValue.get entries (ofString name)).isSome)
    (hvalue : natural entries name = some value) :
    (JsonValue.get entries (ofString name)).getD default = .int value := by
  obtain ⟨found, hfound⟩ := Option.isSome_iff_exists.mp hsome
  have hcount := count_of_natural hvalue
  rw [Recording.count, hfound] at hcount
  rw [hfound]
  exact hcount

theorem countOr_of_naturalOr {name other : String} {value : ℕ}
    (hvalue : naturalOr entries name other = some value) :
    countOr entries name other = .int value := by
  unfold naturalOr at hvalue
  split_ifs at hvalue with hsome
  · exact get_of_natural _ hsome hvalue
  · rw [countOr, Option.not_isSome_iff_eq_none.mp hsome]
    exact count_of_natural hvalue

theorem get_of_totalOr {sum value : ℕ} (hvalue : totalOr entries sum = some value) :
    (JsonValue.get entries (ofString "total_tokens")).getD (.int sum) = .int value := by
  unfold totalOr at hvalue
  split_ifs at hvalue with hsome
  · exact get_of_natural _ hsome hvalue
  · cases hvalue
    rw [Option.not_isSome_iff_eq_none.mp hsome]
    rfl

def tokenUsageOf (usage : Usage) : TokenUsage where
  inputTokens := .int usage.input
  outputTokens := .int usage.output
  totalTokens := .int usage.total
  inputCacheTokens := .int usage.cacheRead
  inputCacheWriteTokens := .int usage.cacheWrite

theorem add_int (left right : ℕ) :
    add round (.int left) (.int right) = .ok (.int ((left + right : ℕ))) := by
  rw [add, JsonValue.add_int]
  norm_cast

/-- The counts of a well-formed usage are read as they are. -/
theorem parse_of_counts {schema : Schema} (hcounts : schema.counts entries = some usage) :
    schema.parse round entries = .ok (tokenUsageOf usage) := by
  cases schema with
  | converse =>
      simp only [Schema.counts, bind, Option.bind_eq_some_iff] at hcounts
      obtain ⟨input, hinput, cacheRead, hread, cacheWrite, hwrite, output, houtput, total, htotal,
        ⟨⟩⟩ := hcounts
      rw [Schema.parse, usageFromDict, count_of_natural hinput, count_of_natural hread,
        count_of_natural hwrite, count_of_natural houtput, count_of_natural htotal]
      simp only [add_int, bind, Except.bind]
      rfl
  | anthropic =>
      simp only [Schema.counts, bind, Option.bind_eq_some_iff] at hcounts
      obtain ⟨input, hinput, cacheRead, hread, cacheWrite, hwrite, output, houtput, ⟨⟩⟩ := hcounts
      rw [Schema.parse, usageFromAnthropicDict, count_of_natural hinput, count_of_natural hread,
        count_of_natural hwrite, count_of_natural houtput]
      simp only [add_int, bind, Except.bind]
      rfl
  | openai =>
      simp only [Schema.counts, bind, Option.bind_eq_some_iff] at hcounts
      obtain ⟨input, hinput, output, houtput, total, htotal, hdetails⟩ := hcounts
      rw [Schema.parse, usageFromOpenaiDict, countOr_of_naturalOr hinput,
        countOr_of_naturalOr houtput]
      simp only [add_int, bind, Except.bind]
      cases hvalue : details entries "prompt_tokens_details" "input_tokens_details" with
      | dict details =>
          rw [hvalue] at hdetails
          obtain ⟨cached, hcached, ⟨⟩⟩ := Option.bind_eq_some_iff.mp hdetails
          dsimp only
          rw [get_of_totalOr htotal, count_of_natural hcached]
          rfl
      | _ =>
          rw [hvalue] at hdetails
          cases hdetails

/-- The whole of what some commands add to a counter. -/
def added (amounts : List (CountField × ℕ)) (field : CountField) : ℕ :=
  ((amounts.filter fun amount => amount.1 = field).map Prod.snd).sum

theorem added_cons (amount : CountField × ℕ) (amounts : List (CountField × ℕ))
    (field : CountField) : added (amount :: amounts) field =
      (if amount.1 = field then amount.2 else 0) + added amounts field := by
  unfold added
  by_cases hfield : amount.1 = field
  · simp [hfield]
  · simp [hfield]

/-- Each amount is added once, as long as no counter leaves the integers of Redis. -/
theorem count_run_hincrby (hexecutes : Executes redis count) (amounts : List (CountField × ℕ))
    (hrange : ∀ field, -2 ^ 63 ≤ count state key field ∧
      count state key field + added amounts field < 2 ^ 63 ∧ added amounts field < 2 ^ 63)
    (field : CountField) :
    count (redis.run state (amounts.map fun amount => .hincrby key amount.1 (.int amount.2))) key
      field = count state key field + added amounts field := by
  induction amounts generalizing state with
  | nil => simp [Redis.run, added]
  | cons amount amounts ih =>
      have hhead := hrange amount.1
      rw [added_cons, if_pos rfl] at hhead
      obtain ⟨after, hexecute, hafter⟩ := hexecutes.hincrby state key amount.1 amount.2
        ⟨by omega, by omega⟩ ⟨by omega, by omega⟩
      have hcount (counter : CountField) : count after key counter =
          count state key counter + if amount.1 = counter then (amount.2 : ℤ) else 0 := by
        rw [hafter]
        simp [eq_comm]
      have hrest (counter : CountField) : -2 ^ 63 ≤ count after key counter ∧
          count after key counter + added amounts counter < 2 ^ 63 ∧
          added amounts counter < 2 ^ 63 := by
        have hcounter := hrange counter
        rw [added_cons] at hcounter
        rw [hcount]
        split_ifs at hcounter ⊢ <;> omega
      rw [List.map_cons, Redis.run, hexecute]
      change count (redis.run after _) key field = _
      rw [ih hrest, hcount, added_cons]
      split_ifs <;> push_cast <;> ring

/-- The texts that are written first leave the counters. -/
theorem exists_run_hset (hexecutes : Executes redis count) (texts : List (CodePoints × CodePoints))
    (commands : List Command) : ∃ after,
      redis.run state (texts.map (fun text => .hset key text.1 text.2) ++ commands) =
        redis.run after commands ∧ count after = count state := by
  induction texts generalizing state with
  | nil => exact ⟨state, rfl, rfl⟩
  | cons text texts ih =>
      obtain ⟨next, hexecute, hnext⟩ := hexecutes.hset state key text.1 text.2
      obtain ⟨after, hrun, hafter⟩ := @ih next
      refine ⟨after, ?_, hafter.trans hnext⟩
      rw [List.map_cons, List.cons_append, Redis.run, hexecute]
      exact hrun

theorem exists_run_commands (hexecutes : Executes redis count) (ctx : Ctx)
    (counts : List (CountField × JsonValue)) : ∃ after,
      redis.run state (commands ctx key counts) =
        redis.run after (counts.map fun count => .hincrby key count.1 count.2) ∧
      count after = count state := by
  unfold commands
  rcases ctx.promptVersion with _ | (_ | ⟨char, version⟩)
  · exact exists_run_hset hexecutes [(ofString "model", extractModelId ctx),
      (ofString "price_prefix", ctx.pricePrefix.getD [])] _
  · exact exists_run_hset hexecutes [(ofString "model", extractModelId ctx),
      (ofString "price_prefix", ctx.pricePrefix.getD [])] _
  · exact exists_run_hset hexecutes [(ofString "model", extractModelId ctx),
      (ofString "price_prefix", ctx.pricePrefix.getD []),
      (ofString "prompt_name", ctx.promptName.getD []),
      (ofString "prompt_version", char :: version)] _

def amountList (isError : Bool) (usage : Usage) : List (CountField × ℕ) :=
  [(.errors, if isError then 1 else 0), (.inputTokenCount, usage.input),
    (.outputTokenCount, usage.output), (.tokenCount, usage.total),
    (.inputCacheTokens, usage.cacheRead), (.inputCacheWriteTokens, usage.cacheWrite)]

theorem added_amountList (isError : Bool) (usage : Usage) (field : CountField) :
    added (amountList isError usage) field = amounts isError usage field := by
  cases field <;> simp [added, amountList, amounts]

/-- What a well-formed usage makes the hook add; an empty one is no usage, and adds nothing. -/
theorem exists_counts {schema : Schema} (hcounts : schema.counts entries = some usage)
    (isError : Bool) : ∃ tokens list, schema.usageFrom round (.dict entries) = .ok tokens ∧
      counts isError tokens = list.map (fun amount => (amount.1, .int amount.2)) ∧
      ∀ field, added list field = amounts isError usage field := by
  unfold Schema.usageFrom
  split_ifs with htruthy
  · refine ⟨some (tokenUsageOf usage), amountList isError usage, ?_, ?_,
      added_amountList isError usage⟩
    · dsimp only
      rw [parse_of_counts hcounts]
      rfl
    · cases isError <;> rfl
  · have hnil : entries = [] := by
      cases entries with
      | nil => rfl
      | cons entry entries => exact absurd rfl htruthy
    subst hnil
    have hzero : usage = ⟨0, 0, 0, 0, 0⟩ := by cases schema <;> cases hcounts <;> rfl
    refine ⟨none, [(.errors, if isError then 1 else 0)], rfl, ?_, fun field => ?_⟩
    · cases isError <;> rfl
    · cases field <;> simp [added, amounts, hzero]

end Counted

/-! ### Every response -/

section Main

variable {State Failure : Type} {round : ℚ → FloatValue} {loads : Bytes → Option JsonValue}
  {redis : Option (Redis State)} {ctx : Ctx} {response : GatewayResponse Failure} {state : State}

theorem extractUsage_of_reported {usage : JsonValue}
    (hreported : reported loads response = some usage) :
    extractUsage round loads ctx response =
      (schemaOf ctx response.stream.isSome).usageFrom round usage := by
  unfold reported at hreported
  unfold extractUsage
  split_ifs at hreported ⊢ with hstream hstatus
  · cases hreported
    rfl
  · unfold extractJsonUsage
    rw [if_neg (not_not_intro hstatus)]
    split at hreported
    · next hloads =>
        cases hreported
        rw [hloads]
    · cases hreported

theorem proxyRequest_snd : (proxyRequest round loads redis ctx response state).2 =
    (onResponse round loads redis ctx response state).2 := by
  unfold proxyRequest
  cases response.stream <;> rfl

/-- The hook adds the counts of a well-formed usage, each to its own counter. -/
theorem count_onResponse {client : Redis State} {counter : State → CodePoints → CountField → ℤ}
    (hexecutes : Executes client counter) {futureId : CodePoints}
    (hfuture : ctx.headers futureIdHeader = some futureId) (hne : futureId ≠ []) {entries : Params}
    (hreported : reported loads response = some (.dict entries)) {usage : Usage}
    (husage : (schemaOf ctx response.stream.isSome).counts entries = some usage)
    (hrange : ∀ field, -2 ^ 63 ≤ counter state (futureKey futureId) field ∧
      counter state (futureKey futureId) field + amounts (isError response) usage field < 2 ^ 63 ∧
      amounts (isError response) usage field < 2 ^ 63) (field : CountField) :
    counter (onResponse round loads (some client) ctx response state).2 (futureKey futureId) field =
      counter state (futureKey futureId) field + amounts (isError response) usage field := by
  obtain ⟨tokens, list, htokens, hlist, hadded⟩ :=
    @exists_counts round _ _ _ husage (isError response)
  obtain ⟨char, rest, rfl⟩ := List.exists_cons_of_ne_nil hne
  have hrun : (onResponse round loads (some client) ctx response state).2 =
      client.run state (commands ctx (futureKey (char :: rest))
        (counts (isError response) tokens)) := by
    rw [onResponse, extractUsage_of_reported hreported, htokens]
    dsimp only
    rw [hfuture]
  obtain ⟨after, hafter, hcounter⟩ := exists_run_commands hexecutes ctx
    (counts (isError response) tokens)
  have hinrange (counted : CountField) :
      -2 ^ 63 ≤ counter after (futureKey (char :: rest)) counted ∧
      counter after (futureKey (char :: rest)) counted + added list counted < 2 ^ 63 ∧
      added list counted < 2 ^ 63 := by
    rw [hcounter, hadded]
    exact_mod_cast hrange counted
  rw [hrun, hafter, hlist, List.map_map]
  have hcounted := count_run_hincrby hexecutes list hinrange field
  rw [hcounter, hadded] at hcounted
  exact hcounted

/-- A response that the hook can read goes through as it came, and its counts are added once. -/
theorem recordingHolds_iff : RecordingHolds round loads redis ctx response state ↔
    Readable round loads ctx response := by
  constructor
  · intro hholds
    exact onResponse_fst_eq_ok_iff.mp hholds.silent
  · intro hreadable
    have hsilent : (onResponse round loads redis ctx response state).1 = .ok () :=
      onResponse_fst_eq_ok_iff.mpr hreadable
    refine ⟨hsilent, ?_, ?_⟩
    · unfold proxyRequest relay
      cases hstream : response.stream with
      | some stream => simp [hsilent, Except.map]
      | none => simp [hsilent, Except.map]
    · intro client hclient counter hexecutes futureId hfuture hne entries hreported usage husage
        total hrange field
      obtain rfl : redis = some client := hclient
      rw [proxyRequest_snd]
      exact count_onResponse hexecutes hfuture hne hreported husage hrange field

end Main

/-! ### A count that is null -/

def nullBody : Bytes :=
  "\x7b\"usage\": \x7b\"prompt_tokens\": null\x7d\x7d".toUTF8.toList

def nullLoads (content : Bytes) : Option JsonValue :=
  if content = nullBody then
    some (.dict [(ofString "usage", .dict [(ofString "prompt_tokens", .null)])])
  else none

def chatCtx : Ctx where
  provider := .openai
  subpath := ofString "v1/chat/completions"
  headers _ := none
  model := some (ofString "gpt-4o")
  promptName := none
  promptVersion := none
  pricePrefix := none

def nullCount : GatewayResponse Empty where
  status := 200
  headers := []
  content := nullBody
  stream := none
  streamUsage := .null
  streamError := false

/-- A null is no zero to `+`, and the agent gets an error for a call that was made. -/
theorem not_recordingHolds_null :
    ¬ RecordingHolds .finite nullLoads (none : Option (Redis Unit)) chatCtx nullCount () := by
  intro hholds
  have hloads : nullLoads nullCount.content =
      some (.dict [(ofString "usage", .dict [(ofString "prompt_tokens", .null)])]) := if_pos rfl
  have hraises :
      (onResponse .finite nullLoads (none : Option (Redis Unit)) chatCtx nullCount ()).1 =
        .error .cannotAdd := by
    rw [onResponse_fst]
    change (extractJsonUsage .finite nullLoads .openai nullCount).map _ = _
    unfold extractJsonUsage
    rw [hloads]
    rfl
  have hsilent := hholds.silent
  rw [hraises] at hsilent
  cases hsilent

end CanyonOS.Gateway.Recording
