import CanyonOS.Controller.Rounding
import CanyonOS.Gateway.Recording
import CanyonOS.Prompts.Versions

/-!
# Tokens from the provider to the dashboard

The gateway adds up what the calls of a future report, the cached tokens as part of the input; the
counters become columns of the trace row, attributes of a span and JSON in Postgres, and the
dashboard computes with them. It takes the cached tokens to be beside the input.
-/

namespace CanyonOS.TokenCounts

open CodePoints (ofString)
open Gateway.Proxy (Params)
open Gateway.Pricing Gateway.Recording Governance

/-! ### The calls of a future -/

/-- A call whose response reports a usage of natural numbers. -/
structure Call (Failure : Type) (loads : EventStream.Bytes → Option JsonValue)
    (futureId : CodePoints) where
  ctx : Ctx
  response : GatewayResponse Failure
  entries : Params
  usage : Usage
  sent : ctx.headers futureIdHeader = some futureId
  reports : Gateway.Recording.reported loads response = some (.dict entries)
  counted : (schemaOf ctx response.stream.isSome).counts entries = some usage

section Recorded

variable {State Failure : Type} (round : ℚ → FloatValue)
  {loads : EventStream.Bytes → Option JsonValue} {futureId : CodePoints}

/-- The calls of one future, recorded one after the other. -/
def recordAll (redis : Gateway.Recording.Redis State) (calls : List (Call Failure loads futureId))
    (state : State) : State :=
  calls.foldl
    (fun state call => (onResponse round loads (some redis) call.ctx call.response state).2) state

/-- The sum of what the calls report. -/
def totalOf (count : Usage → ℕ) (calls : List (Call Failure loads futureId)) : ℕ :=
  (calls.map fun call => count call.usage).sum

/-- What all calls add to a counter. -/
def addedByAll (calls : List (Call Failure loads futureId)) (field : CountField) : ℕ :=
  (calls.map fun call => amounts (isError call.response) call.usage field).sum

end Recorded

/-! ### Row, span and attributes -/

/-- `int(float(count))`. -/
def intFloat (count : ℤ) : ℕ :=
  roundToDouble count.toNat

/-- The token columns of a row of `traces_waiting`. -/
structure TokenColumns where
  inputTokenCount : ℕ
  outputTokenCount : ℕ
  tokenCount : ℕ
  cachedTokens : ℕ

def tokenColumns (count : CountField → ℤ) : TokenColumns where
  inputTokenCount := intFloat (count .inputTokenCount)
  outputTokenCount := intFloat (count .outputTokenCount)
  tokenCount := intFloat (count .tokenCount)
  cachedTokens := intFloat (count .inputCacheTokens)

def inputTokensKey : String := "gen_ai.usage.input_tokens"

def outputTokensKey : String := "gen_ai.usage.output_tokens"

def cacheReadInputTokensKey : String := "gen_ai.usage.cache_read.input_tokens"

def tokenAttributes (row : TokenColumns) : List (String × ℕ) :=
  [(inputTokensKey, row.inputTokenCount), (outputTokensKey, row.outputTokenCount),
    ("token_count", row.tokenCount), (cacheReadInputTokensKey, row.cachedTokens)]

/-- The attributes of the span that is exported, the placeholder's where an integer is beyond 64
bits. -/
def exportedAttributes (row : TokenColumns) : List (String × ℕ) :=
  if ∀ entry ∈ tokenAttributes row, entry.2 < 2 ^ 63 then tokenAttributes row else []

/-- An integer as the API stores it: a number of JavaScript, written in the fewest digits. -/
def storedCount (value : ℕ) : ℕ :=
  Prompts.shortest (roundToDouble value)

/-- The numbers in the `attributes` of a row of `otel_spans`. -/
abbrev Attributes := List (String × ℚ)

def storedAttributes (attributes : List (String × ℕ)) : Attributes :=
  attributes.map fun entry => (entry.1, (storedCount entry.2 : ℚ))

/-! ### The dashboard -/

/-- A nonnegative whole number. -/
def attrCount (attributes : Attributes) (key : String) : Option ℚ :=
  (attributes.lookup key).filter fun value => 0 ≤ value && value.den = 1

def spanInputTokens (attributes : Attributes) : Option ℚ :=
  attrCount attributes inputTokensKey

def spanOutputTokens (attributes : Attributes) : Option ℚ :=
  attrCount attributes outputTokensKey

def spanCacheReadTokens (attributes : Attributes) : Option ℚ :=
  attrCount attributes cacheReadInputTokensKey

def spanTotalTokens (attributes : Attributes) : Option ℚ :=
  if spanInputTokens attributes = none ∧ spanOutputTokens attributes = none then none
  else some ((spanInputTokens attributes).getD 0 + (spanOutputTokens attributes).getD 0)

def spanCacheHitRatio (attributes : Attributes) : Option ℚ :=
  match spanCacheReadTokens attributes with
  | none => none
  | some cached =>
      let input := (spanInputTokens attributes).getD 0
      if 0 < cached + input then some (cached / (cached + input)) else none

/-! ### What the dashboard must say -/

section Agree

variable {Failure : Type} {loads : EventStream.Bytes → Option JsonValue} {futureId : CodePoints}

/-- The dashboard's tokens and cache hit ratio are those of the reports; there is no ratio where
there are no prompt tokens. -/
structure CountsAgree (calls : List (Call Failure loads futureId)) (attributes : Attributes) :
    Prop where
  total : spanTotalTokens attributes =
    some ((totalOf Usage.input calls + totalOf Usage.output calls : ℕ) : ℚ)
  ratio : spanCacheHitRatio attributes =
    if totalOf Usage.input calls = 0 then none
    else some ((totalOf Usage.cacheRead calls : ℚ) / totalOf Usage.input calls)
  atMostOne : ∀ ratio ∈ spanCacheHitRatio attributes, ratio ≤ 1

/-- A sum as the dashboard reads it. -/
def shown (total : ℕ) : ℕ :=
  storedCount (intFloat total)

/-- No call read from a cache; beyond 2 ^ 53 tokens, rounding keeps the total within 64 bits and the
sum of input and output, or happens to make up for the cached tokens. -/
structure HoldsWhen (calls : List (Call Failure loads futureId)) : Prop where
  encodable : ∀ count ∈ [Usage.input, Usage.output, Usage.total, Usage.cacheRead],
    intFloat (totalOf count calls) < 2 ^ 63
  total : shown (totalOf Usage.input calls) + shown (totalOf Usage.output calls) =
    totalOf Usage.input calls + totalOf Usage.output calls
  cached : totalOf Usage.cacheRead calls = 0 ∨
    (shown (totalOf Usage.cacheRead calls) : ℤ) *
        (totalOf Usage.input calls - totalOf Usage.cacheRead calls) =
      totalOf Usage.cacheRead calls * shown (totalOf Usage.input calls)

end Agree

/-! ### Rounding -/

theorem shortest_pos {value : ℕ} (hpos : 0 < value) : 0 < Prompts.shortest value := by
  unfold Prompts.shortest
  split_ifs with hsmall
  · exact hpos
  · cases hlist : (List.range 309).reverse.filterMap fun zeros =>
        Prompts.closest value (10 ^ zeros) with
    | nil => exact hpos
    | cons first rest =>
        have hmem : first ∈ (List.range 309).reverse.filterMap fun zeros =>
            Prompts.closest value (10 ^ zeros) := hlist ▸ List.mem_cons_self
        obtain ⟨zeros, -, hclosest⟩ := List.mem_filterMap.mp hmem
        refine Nat.pos_of_ne_zero fun hzero => ?_
        change first = 0 at hzero
        -- what reads back as the value is not zero
        have hreads : roundToDouble first = value := by
          unfold Prompts.closest at hclosest
          dsimp only at hclosest
          split_ifs at hclosest with hbelow habove
          · cases hclosest
            exact of_decide_eq_true hbelow.1
          · cases hclosest
            exact of_decide_eq_true habove
        rw [hzero] at hreads
        have hround : roundToDouble 0 = 0 := by decide
        omega

theorem shown_zero : shown 0 = 0 := by decide

theorem shown_pos {total : ℕ} (hpos : 0 < total) : 0 < shown total :=
  shortest_pos (roundToDouble_pos (roundToDouble_pos hpos))

theorem shown_of_le {total : ℕ} (hle : total ≤ 2 ^ 53) : shown total = total := by
  have hround : roundToDouble total = total := Prompts.roundToDouble_of_le hle
  change Prompts.shortest (roundToDouble (roundToDouble total)) = total
  rw [hround, hround]
  exact if_pos hle

/-! ### The whole way -/

section Way

variable {State Failure : Type} {round : ℚ → FloatValue}
  {loads : EventStream.Bytes → Option JsonValue} {futureId : CodePoints}
  {redis : Gateway.Recording.Redis State}
  {count : State → CodePoints → CountField → ℤ} {state : State}

theorem addedByAll_cons (call : Call Failure loads futureId)
    (calls : List (Call Failure loads futureId)) (field : CountField) :
    addedByAll (call :: calls) field =
      amounts (isError call.response) call.usage field + addedByAll calls field :=
  rfl

/-- Every call is counted once, as long as no counter leaves the integers of Redis. -/
theorem count_recordAll (hexecutes : Executes redis count) (hfuture : futureId ≠ [])
    (calls : List (Call Failure loads futureId))
    (hrange : ∀ field, 0 ≤ count state (futureKey futureId) field ∧
      count state (futureKey futureId) field + addedByAll calls field < 2 ^ 63)
    (field : CountField) :
    count (recordAll round redis calls state) (futureKey futureId) field =
      count state (futureKey futureId) field + addedByAll calls field := by
  induction calls generalizing state with
  | nil => exact (add_zero _).symm
  | cons call calls ih =>
      have hafter : ∀ other, count (onResponse round loads (some redis) call.ctx call.response
          state).2 (futureKey futureId) other = count state (futureKey futureId) other +
            amounts (isError call.response) call.usage other := by
        refine count_onResponse hexecutes call.sent hfuture call.reports call.counted ?_
        intro other
        have hother := hrange other
        rw [addedByAll_cons] at hother
        push_cast at hother
        omega
      have hrest := @ih (onResponse round loads (some redis) call.ctx call.response state).2 ?_
      · rw [addedByAll_cons, Nat.cast_add, ← add_assoc, ← hafter field]
        exact hrest
      · intro other
        have hother := hrange other
        rw [addedByAll_cons] at hother
        rw [hafter]
        push_cast at hother
        omega

end Way

/-! ### What the dashboard reads -/

theorem filter_natCast (value : ℕ) :
    (some (value : ℚ)).filter (fun value => 0 ≤ value && value.den = 1) = some (value : ℚ) := by
  refine Option.filter_eq_some_iff.mpr ⟨rfl, ?_⟩
  rw [Bool.and_eq_true, decide_eq_true_iff, decide_eq_true_iff]
  exact ⟨Nat.cast_nonneg value, Rat.den_natCast value⟩

section Columns

variable (row : TokenColumns)

theorem spanInputTokens_stored : spanInputTokens (storedAttributes (tokenAttributes row)) =
    some (storedCount row.inputTokenCount : ℚ) :=
  filter_natCast _

theorem spanOutputTokens_stored : spanOutputTokens (storedAttributes (tokenAttributes row)) =
    some (storedCount row.outputTokenCount : ℚ) :=
  filter_natCast _

theorem spanCacheReadTokens_stored :
    spanCacheReadTokens (storedAttributes (tokenAttributes row)) =
      some (storedCount row.cachedTokens : ℚ) :=
  filter_natCast _

theorem spanTotalTokens_stored : spanTotalTokens (storedAttributes (tokenAttributes row)) =
    some ((storedCount row.inputTokenCount + storedCount row.outputTokenCount : ℕ) : ℚ) := by
  unfold spanTotalTokens
  rw [spanInputTokens_stored, spanOutputTokens_stored, if_neg (fun hnone => nomatch hnone.1)]
  push_cast
  rfl

theorem spanCacheHitRatio_stored : spanCacheHitRatio (storedAttributes (tokenAttributes row)) =
    if storedCount row.cachedTokens + storedCount row.inputTokenCount = 0 then none
    else some ((storedCount row.cachedTokens : ℚ) /
      (storedCount row.cachedTokens + storedCount row.inputTokenCount)) := by
  unfold spanCacheHitRatio
  rw [spanInputTokens_stored, spanCacheReadTokens_stored]
  dsimp only [Option.getD_some]
  split_ifs with hpos hzero hzero
  · rw [← Nat.cast_add, hzero] at hpos
    exact absurd hpos (by norm_num)
  · rfl
  · rfl
  · refine absurd ?_ hpos
    exact_mod_cast Nat.pos_of_ne_zero hzero

end Columns

/-- The ratio is right when cached tokens that are counted twice make no difference. -/
theorem ratio_eq_iff {input cached shownInput shownCached : ℕ} (hinput : 0 < input)
    (hshown : 0 < shownCached + shownInput) :
    (shownCached : ℚ) / (shownCached + shownInput) = (cached : ℚ) / input ↔
      (shownCached : ℤ) * (input - cached) = cached * shownInput := by
  have hleft : (shownCached : ℚ) + shownInput ≠ 0 := by exact_mod_cast hshown.ne'
  have hright : (input : ℚ) ≠ 0 := by exact_mod_cast hinput.ne'
  rw [div_eq_div_iff hleft hright]
  constructor
  · intro heq
    have hint : (shownCached : ℤ) * input = cached * (shownCached + shownInput) := by
      exact_mod_cast heq
    linear_combination hint
  · intro heq
    have hrat : (shownCached : ℚ) * (input - cached) = cached * shownInput := by
      exact_mod_cast heq
    linear_combination hrat

section Main

variable {State Failure : Type} {round : ℚ → FloatValue}
  {loads : EventStream.Bytes → Option JsonValue} {futureId : CodePoints}
  {redis : Gateway.Recording.Redis State}
  {count : State → CodePoints → CountField → ℤ} {state : State}

theorem tokenColumns_recordAll (hexecutes : Executes redis count) (hfuture : futureId ≠ [])
    (calls : List (Call Failure loads futureId))
    (hzero : ∀ field, count state (futureKey futureId) field = 0)
    (hrange : ∀ field, addedByAll calls field < 2 ^ 63) :
    tokenColumns (count (recordAll round redis calls state) (futureKey futureId)) =
      { inputTokenCount := intFloat (totalOf Usage.input calls)
        outputTokenCount := intFloat (totalOf Usage.output calls)
        tokenCount := intFloat (totalOf Usage.total calls)
        cachedTokens := intFloat (totalOf Usage.cacheRead calls) } := by
  have hcount (field : CountField) :
      count (recordAll round redis calls state) (futureKey futureId) field =
        (addedByAll calls field : ℤ) := by
    have hadded := @count_recordAll _ _ round _ _ _ _ state hexecutes hfuture calls
      (fun other => by
        have hother := hrange other
        rw [hzero]
        omega) field
    rw [hadded, hzero, zero_add]
  unfold tokenColumns
  rw [hcount, hcount, hcount, hcount]
  rfl

/-- The ratio of sums, each as the dashboard reads it. -/
theorem ratio_iff (input cached : ℕ) :
    (if shown cached + shown input = 0 then none
      else some ((shown cached : ℚ) / (shown cached + shown input))) =
        (if input = 0 then none else some ((cached : ℚ) / input)) ↔
      cached = 0 ∨ (shown cached : ℤ) * (input - cached) = cached * shown input := by
  obtain rfl | hcached := Nat.eq_zero_or_pos cached
  · -- nothing is cached, and both ratios are zero
    rw [shown_zero]
    refine iff_of_true ?_ (.inl rfl)
    obtain rfl | hinput := Nat.eq_zero_or_pos input
    · rw [shown_zero]
      rfl
    · have hshown := shown_pos hinput
      rw [if_neg (by omega), if_neg (by omega), Nat.cast_zero, zero_div, zero_div]
  · have hpos := shown_pos hcached
    rw [if_neg (by omega), or_iff_right (by omega)]
    obtain rfl | hinput := Nat.eq_zero_or_pos input
    · rw [if_pos rfl, shown_zero]
      refine iff_of_false (fun heq => nomatch heq) fun heq => ?_
      have hproduct : (0 : ℤ) < shown cached * cached := by positivity
      push_cast at heq
      linarith
    · rw [if_neg (by omega), Option.some_inj]
      exact ratio_eq_iff hinput (by omega)

/-- The dashboard says what the calls reported when no call read from a cache, as far as rounding
lets it. -/
theorem countsAgree_iff (hexecutes : Executes redis count) (hfuture : futureId ≠ [])
    (calls : List (Call Failure loads futureId))
    (hzero : ∀ field, count state (futureKey futureId) field = 0)
    (hrange : ∀ field, addedByAll calls field < 2 ^ 63) :
    CountsAgree calls (storedAttributes (exportedAttributes (tokenColumns
      (count (recordAll round redis calls state) (futureKey futureId))))) ↔ HoldsWhen calls := by
  rw [tokenColumns_recordAll hexecutes hfuture calls hzero hrange]
  unfold exportedAttributes
  split_ifs with hencodable
  · constructor
    · intro hagree
      refine ⟨?_, ?_, ?_⟩
      · simpa [tokenAttributes] using hencodable
      · have htotal := hagree.total
        rw [spanTotalTokens_stored, Option.some_inj] at htotal
        exact Nat.cast_injective htotal
      · have hratio := hagree.ratio
        rw [spanCacheHitRatio_stored] at hratio
        exact (ratio_iff _ _).mp hratio
    · intro hholds
      have hratio := (ratio_iff _ _).mpr hholds.cached
      refine ⟨?_, ?_, ?_⟩
      · rw [spanTotalTokens_stored]
        exact congrArg (fun total : ℕ => some (total : ℚ)) hholds.total
      · rw [spanCacheHitRatio_stored]
        exact hratio
      · intro ratio hmem
        rw [spanCacheHitRatio_stored] at hmem
        split_ifs at hmem with hnone
        · cases hmem
        · cases hmem
          refine div_le_one_of_le₀ ?_ (by positivity)
          exact le_add_of_nonneg_right (Nat.cast_nonneg _)
  · refine iff_of_false (fun hagree => ?_) fun hholds => hencodable ?_
    · have htotal := hagree.total
      cases htotal
    · simpa [tokenAttributes] using hholds.encodable

/-- Up to 2 ^ 53 tokens nothing is rounded. -/
theorem holdsWhen_iff {calls : List (Call Failure loads futureId)}
    (hsmall : ∀ count ∈ [Usage.input, Usage.output, Usage.total, Usage.cacheRead],
      totalOf count calls ≤ 2 ^ 53) :
    HoldsWhen calls ↔ totalOf Usage.cacheRead calls = 0 := by
  have hinput := shown_of_le (hsmall Usage.input (by simp))
  have houtput := shown_of_le (hsmall Usage.output (by simp))
  have hcached := shown_of_le (hsmall Usage.cacheRead (by simp))
  constructor
  · intro hholds
    refine hholds.cached.elim id fun heq => ?_
    rw [hinput, hcached] at heq
    have hsquare : (totalOf Usage.cacheRead calls : ℤ) * totalOf Usage.cacheRead calls = 0 := by
      linear_combination -heq
    exact_mod_cast mul_self_eq_zero.mp hsquare
  · intro hzero
    refine ⟨fun count hmem => ?_, ?_, .inl hzero⟩
    · have hle := hsmall count hmem
      have hround : intFloat (totalOf count calls) = totalOf count calls :=
        Prompts.roundToDouble_of_le hle
      omega
    · rw [hinput, houtput]

end Main

/-! ### A call that reads from the cache -/

/-- The counters, and nothing else. -/
def memory : Gateway.Recording.Redis (CodePoints → CountField → ℤ) where
  execute
    | counters, .hincrby key field (.int amount) =>
        (fun other counter => counters other counter +
          if other = key ∧ counter = field then amount else 0, false)
    | counters, _ => (counters, false)

theorem executes_memory : Executes memory fun counters => counters where
  hset counters _ _ _ := ⟨counters, rfl, rfl⟩
  hincrby _ _ _ _ _ _ := ⟨_, rfl, fun _ _ => rfl⟩

def claudeEntries : Params :=
  [(ofString "input_tokens", .int 10), (ofString "cache_read_input_tokens", .int 90),
    (ofString "output_tokens", .int 5)]

def claudeBody : EventStream.Bytes :=
  ("\x7b\"usage\": \x7b\"input_tokens\": 10, \"cache_read_input_tokens\": 90, " ++
    "\"output_tokens\": 5\x7d\x7d").toUTF8.toList

def claudeLoads (content : EventStream.Bytes) : Option JsonValue :=
  if content = claudeBody then some (.dict [(ofString "usage", .dict claudeEntries)]) else none

/-- 100 tokens of a prompt, 90 of them from the cache. -/
def claudeCall : Call Empty claudeLoads [1] where
  ctx :=
    { provider := .anthropic
      subpath := ofString "v1/messages"
      headers := fun _ => some [1]
      model := some (ofString "claude-opus-4")
      promptName := none
      promptVersion := none
      pricePrefix := none }
  response :=
    { status := 200
      headers := []
      content := claudeBody
      stream := none
      streamUsage := .null
      streamError := false }
  entries := claudeEntries
  usage := ⟨100, 5, 105, 90, 0⟩
  sent := rfl
  reports := by
    have hloads : claudeLoads claudeBody =
        some (.dict [(ofString "usage", .dict claudeEntries)]) := if_pos rfl
    unfold Gateway.Recording.reported
    rw [hloads]
    rfl
  counted := rfl

theorem countsAgree_claude :
    CountsAgree [claudeCall] (storedAttributes (exportedAttributes (tokenColumns
      (recordAll .finite memory [claudeCall] (fun _ _ => 0) (futureKey [1]))))) ↔
        HoldsWhen [claudeCall] :=
  countsAgree_iff executes_memory (List.cons_ne_nil 1 []) [claudeCall] (fun _ => rfl)
    (fun field => by cases field <;> decide)

/-- The dashboard counts the 90 tokens beside the 100 that they are part of. -/
theorem not_countsAgree_claude :
    ¬ CountsAgree [claudeCall] (storedAttributes (exportedAttributes (tokenColumns
      (recordAll .finite memory [claudeCall] (fun _ _ => 0) (futureKey [1]))))) := by
  intro hagree
  have hcolumns := @tokenColumns_recordAll _ _ .finite _ _ _ _ (fun _ _ => 0) executes_memory
    (List.cons_ne_nil 1 []) [claudeCall] (fun _ => rfl) (fun field => by cases field <;> decide)
  have hratio := hagree.ratio
  rw [hcolumns, exportedAttributes, if_pos (by decide), spanCacheHitRatio_stored] at hratio
  have hshown : storedCount (intFloat (totalOf Usage.cacheRead [claudeCall])) = 90 ∧
      storedCount (intFloat (totalOf Usage.input [claudeCall])) = 100 := by decide
  rw [hshown.1, hshown.2] at hratio
  change some ((90 : ℚ) / (90 + 100)) = some ((90 : ℚ) / 100) at hratio
  norm_num at hratio

end CanyonOS.TokenCounts
