import Mathlib
import CanyonOS.Lib.TransitionSystem

/-!
# The token cost of a future

The gateway records each LLM call of a future on the future's record, from several threads; the
export prices the record once. Prices and costs are exact.
-/

namespace CanyonOS.Gateway.Pricing

abbrev Text := List Char

/-- In USD per million tokens. -/
@[ext]
structure Prices where
  input : ℚ
  output : ℚ
  cacheRead : ℚ
  cacheWrite : ℚ
deriving DecidableEq

/-- The digits of `\d`, and `_token_cost_by_model_id`. -/
structure Table where
  isDecimal : Char → Bool
  costs : Text → Option Prices

namespace Table

variable (table : Table)

def afterDash : Text → Text
  | '-' :: rest => rest
  | text => text

/-- The whole text is `-\d{4}-?\d{2}-?\d{2}`. -/
def isDate : Text → Bool
  | '-' :: y₁ :: y₂ :: y₃ :: y₄ :: rest =>
      [y₁, y₂, y₃, y₄].all table.isDecimal &&
        match afterDash rest with
        | m₁ :: m₂ :: rest =>
            [m₁, m₂].all table.isDecimal &&
              match afterDash rest with
              | [d₁, d₂] => [d₁, d₂].all table.isDecimal
              | _ => false
        | _ => false
  | _ => false

def withoutDate (text : Text) : Text :=
  match text.tails.find? table.isDate with
  | some date => text.take (text.length - date.length)
  | none => text

/-- `re.sub`, whose `$` may stand before a last newline. -/
def undated (modelId : Text) : Text :=
  if modelId.getLast? = some '\n' then table.withoutDate modelId.dropLast ++ ['\n']
  else table.withoutDate modelId

def startsWith (modelId : Text) (start : String) : Bool :=
  start.toList.isPrefixOf modelId

def spellings (modelId : Text) : List Text :=
  modelId :: if table.undated modelId = modelId then [] else [table.undated modelId]

/-- Most specific first. -/
def candidateModelIds (modelId pricePrefix : Text) : List Text :=
  let spellings := table.spellings modelId
  (if pricePrefix = [] then [] else [pricePrefix ++ ['/'] ++ modelId]) ++ spellings ++
    (if startsWith modelId "gpt-" then
      ["openai.", "global.openai."].flatMap fun vendor => spellings.map (vendor.toList ++ ·)
    else []) ++
    if startsWith modelId "claude-" then
      spellings.map fun spelling => "anthropic.".toList ++ spelling ++ "-v1:0".toList
    else []

def tokenPrices (modelId : Option Text) (pricePrefix : Text) : Option Prices :=
  match modelId with
  | none | some [] => none
  | some modelId => (table.candidateModelIds modelId pricePrefix).findSome? table.costs

end Table

/-- The token counts that a response reports. -/
structure Usage where
  input : ℕ
  output : ℕ
  total : ℕ
  /-- the part of the input read from the cache, and the part written to it -/
  cacheRead : ℕ
  cacheWrite : ℕ

def computeTokenCost (table : Table) (modelId : Option Text) (input output cacheRead cacheWrite : ℕ)
    (pricePrefix : Text) : ℚ :=
  match table.tokenPrices modelId pricePrefix with
  | none => 0
  | some prices =>
      let uncached : ℚ := input - cacheRead - cacheWrite
      (uncached * prices.input + cacheRead * prices.cacheRead + cacheWrite * prices.cacheWrite +
        output * prices.output) / 1000000

/-! ### Recording the calls -/

structure Call where
  model : Text
  pricePrefix : Option Text
  /-- name and version of the prompt it was sent with -/
  prompt : Option (Text × Text)
  isError : Bool
  /-- the response reports its usage -/
  reports : Bool

inductive CountField where
  | errors
  | inputTokenCount
  | outputTokenCount
  | tokenCount
  | inputCacheTokens
  | inputCacheWriteTokens
deriving DecidableEq

inductive Write where
  | model
  | pricePrefix
  | promptName
  | promptVersion
  | count (field : CountField)
deriving DecidableEq

/-- The commands of `on_response`, in order. -/
def Call.writes (call : Call) : List Write :=
  [.model, .pricePrefix] ++
    (if call.prompt.isSome then [.promptName, .promptVersion] else []) ++
    .count .errors ::
      if call.reports then
        [.count .inputTokenCount, .count .outputTokenCount, .count .tokenCount,
          .count .inputCacheTokens, .count .inputCacheWriteTokens]
      else []

def amount (call : Call) (usage : Usage) : CountField → ℕ
  | .errors => if call.isError then 1 else 0
  | .inputTokenCount => usage.input
  | .outputTokenCount => usage.output
  | .tokenCount => usage.total
  | .inputCacheTokens => usage.cacheRead
  | .inputCacheWriteTokens => usage.cacheWrite

structure Record where
  model : Option Text
  pricePrefix : Option Text
  promptName : Option Text
  promptVersion : Option Text
  counts : CountField → ℕ

structure State (CallId : Type*) where
  record : Record
  /-- the commands of each call that are to come -/
  remaining : CallId → List Write

section Step

variable {CallId : Type*} [DecidableEq CallId] (calls : CallId → Call) (usage : CallId → Usage)

def Record.write (record : Record) (call : Call) (usage : Usage) : Write → Record
  | .model => { record with model := some call.model }
  | .pricePrefix => { record with pricePrefix := some (call.pricePrefix.getD []) }
  | .promptName => { record with promptName := call.prompt.map Prod.fst }
  | .promptVersion => { record with promptVersion := call.prompt.map Prod.snd }
  | .count field =>
      let count := record.counts field + amount call usage field
      { record with counts := Function.update record.counts field count }

/-- The next command of a call. -/
def step (state : State CallId) (call : CallId) : Option (State CallId) :=
  match state.remaining call with
  | [] => none
  | write :: rest => some {
      record := state.record.write (calls call) (usage call) write
      remaining := Function.update state.remaining call rest }

def initial : State CallId where
  record := {
    model := none, pricePrefix := none, promptName := none, promptVersion := none, counts _ := 0 }
  remaining call := (calls call).writes

def system : TransitionSystem (State CallId) CallId where
  step := step calls usage

end Step

/-- What `_trace_write_rows` computes. -/
def tokenCost (table : Table) (record : Record) : ℚ :=
  computeTokenCost table record.model (record.counts .inputTokenCount)
    (record.counts .outputTokenCount) (record.counts .inputCacheTokens)
    (record.counts .inputCacheWriteTokens) (record.pricePrefix.getD [])

/-- What a call costs by itself; one that reports no usage has no tokens. -/
def callCost (table : Table) (call : Call) (usage : Usage) : ℚ :=
  if call.reports then
    computeTokenCost table (some call.model) usage.input usage.output usage.cacheRead
      usage.cacheWrite (call.pricePrefix.getD [])
  else 0

/-! ### Prices -/

/-- A model without a price costs nothing. -/
def effectivePrices (table : Table) (modelId : Option Text) (pricePrefix : Text) : Prices :=
  (table.tokenPrices modelId pricePrefix).getD ⟨0, 0, 0, 0⟩

def Prices.cost (prices : Prices) (input output cacheRead cacheWrite : ℚ) : ℚ :=
  ((input - cacheRead - cacheWrite) * prices.input + cacheRead * prices.cacheRead +
    cacheWrite * prices.cacheWrite + output * prices.output) / 1000000

theorem computeTokenCost_eq (table : Table) (modelId : Option Text)
    (input output cacheRead cacheWrite : ℕ) (pricePrefix : Text) :
    computeTokenCost table modelId input output cacheRead cacheWrite pricePrefix =
      (effectivePrices table modelId pricePrefix).cost input output cacheRead cacheWrite := by
  rw [computeTokenCost, effectivePrices]
  cases table.tokenPrices modelId pricePrefix with
  | none => simp [Prices.cost]
  | some prices => rfl

/-- Prices are determined by what four calls cost. -/
theorem Prices.eq_of_cost {prices others : Prices}
    (hcost : ∀ input output cacheRead cacheWrite : ℕ,
      prices.cost input output cacheRead cacheWrite =
        others.cost input output cacheRead cacheWrite) :
    prices = others := by
  have hinput := hcost 1 0 0 0
  have houtput := hcost 0 1 0 0
  have hread := hcost 1 0 1 0
  have hwrite := hcost 1 0 0 1
  simp only [Prices.cost, Nat.cast_one, Nat.cast_zero] at hinput houtput hread hwrite
  ext <;> linarith

theorem Prices.cost_sum {CallId : Type*} [Fintype CallId] (prices : Prices)
    (input output cacheRead cacheWrite : CallId → ℚ) :
    prices.cost (∑ call, input call) (∑ call, output call) (∑ call, cacheRead call)
        (∑ call, cacheWrite call) =
      ∑ call, prices.cost (input call) (output call) (cacheRead call) (cacheWrite call) := by
  simp only [Prices.cost]
  rw [← Finset.sum_div, Finset.sum_add_distrib, Finset.sum_add_distrib, Finset.sum_add_distrib,
    ← Finset.sum_mul, ← Finset.sum_mul, ← Finset.sum_mul, ← Finset.sum_mul,
    Finset.sum_sub_distrib, Finset.sum_sub_distrib]

/-! ### What a run leaves -/

section Runs

variable {CallId : Type*} [DecidableEq CallId] {calls : CallId → Call}
  {usage other : CallId → Usage} {state next : State CallId} {call : CallId} {field : CountField}

theorem eq_of_step (hstep : step calls usage state call = some next) :
    ∃ write rest, state.remaining call = write :: rest ∧
      next.record = state.record.write (calls call) (usage call) write ∧
      next.remaining = Function.update state.remaining call rest := by
  rw [step] at hstep
  split at hstep
  case h_1 => cases hstep
  case h_2 write rest hremaining =>
    cases hstep
    exact ⟨write, rest, hremaining, rfl, rfl⟩

theorem counts_write (record : Record) (call : Call) (usage : Usage) (write : Write) :
    (record.write call usage write).counts field =
      record.counts field + [write].count (.count field) * amount call usage field := by
  cases write with
  | count written =>
      show Function.update record.counts written _ field = _
      by_cases heq : written = field
      · subst heq
        rw [Function.update_self, List.count_singleton_self, one_mul]
      · have hne : Write.count written ≠ Write.count field := fun hsame => heq (by cases hsame; rfl)
        rw [Function.update_of_ne (Ne.symm heq), List.count_eq_zero_of_not_mem, zero_mul, add_zero]
        exact fun hmem => hne (List.mem_singleton.mp hmem).symm
  | _ => simp [Record.write]

/-- Two runs of one schedule differ in their counts only. -/
structure SameShape (state other : State CallId) : Prop where
  remaining : state.remaining = other.remaining
  model : state.record.model = other.record.model
  pricePrefix : state.record.pricePrefix = other.record.pricePrefix

theorem sameShape_step {state' : State CallId} (hsame : SameShape state state')
    (hstep : step calls usage state call = some next) :
    ∃ next', step calls other state' call = some next' ∧ SameShape next next' := by
  obtain ⟨write, rest, hremaining, hrecord, hnext⟩ := eq_of_step hstep
  rw [hsame.remaining] at hremaining
  refine ⟨⟨state'.record.write (calls call) (other call) write,
    Function.update state'.remaining call rest⟩, ?_, ?_⟩
  · rw [step, hremaining]
  · refine ⟨by rw [hnext, hsame.remaining], ?_, ?_⟩
    · rw [hrecord]
      cases write with
      | model => rfl
      | _ => exact hsame.model
    · rw [hrecord]
      cases write with
      | pricePrefix => rfl
      | _ => exact hsame.pricePrefix

theorem sameShape_run {state' final : State CallId} {schedule : List CallId}
    (hsame : SameShape state state')
    (hrun : (system calls usage).run state schedule = some final) :
    ∃ final', (system calls other).run state' schedule = some final' ∧ SameShape final final' := by
  induction schedule generalizing state state' with
  | nil =>
      cases hrun
      exact ⟨state', rfl, hsame⟩
  | cons call schedule ih =>
      obtain ⟨next, hnext, hrest⟩ := (system calls usage).run_cons_eq_some.mp hrun
      obtain ⟨next', hnext', hshape⟩ := sameShape_step hsame hnext
      obtain ⟨final', hfinal, hsame'⟩ := ih hshape hrest
      exact ⟨final', (system calls other).run_cons_eq_some.mpr ⟨next', hnext', hfinal⟩, hsame'⟩

variable [Fintype CallId]

/-- What the calls add to a field in the commands that are to come. -/
def outstanding (calls : CallId → Call) (usage : CallId → Usage) (remaining : CallId → List Write)
    (field : CountField) : ℕ :=
  ∑ call, (remaining call).count (.count field) * amount (calls call) (usage call) field

theorem outstanding_update {remaining : CallId → List Write} {write : Write} {rest : List Write}
    (hremaining : remaining call = write :: rest) :
    [write].count (.count field) * amount (calls call) (usage call) field +
        outstanding calls usage (Function.update remaining call rest) field =
      outstanding calls usage remaining field := by
  have hupdate : (fun other => (Function.update remaining call rest other).count (.count field) *
      amount (calls other) (usage other) field) =
      Function.update (fun other => (remaining other).count (.count field) *
        amount (calls other) (usage other) field) call
        (rest.count (.count field) * amount (calls call) (usage call) field) := by
    funext other
    by_cases heq : other = call
    · rw [heq, Function.update_self, Function.update_self]
    · rw [Function.update_of_ne heq, Function.update_of_ne heq]
  have hhead : (remaining call).count (.count field) =
      [write].count (.count field) + rest.count (.count field) := by
    rw [hremaining, ← List.count_append]
    rfl
  calc
    [write].count (.count field) * amount (calls call) (usage call) field +
        outstanding calls usage (Function.update remaining call rest) field =
      ([write].count (.count field) + rest.count (.count field)) *
          amount (calls call) (usage call) field +
        ∑ other ∈ Finset.univ \ {call}, (remaining other).count (.count field) *
          amount (calls other) (usage other) field := by
      rw [outstanding, hupdate, Finset.sum_update_of_mem (Finset.mem_univ call)]
      ring
    _ = outstanding calls usage remaining field := by
      rw [← hhead, outstanding, Finset.sdiff_singleton_eq_erase]
      exact Finset.add_sum_erase Finset.univ (fun other => (remaining other).count (.count field) *
        amount (calls other) (usage other) field) (Finset.mem_univ call)

/-- A step moves what it adds from what is to come to the record. -/
theorem counts_step (hstep : step calls usage state call = some next) :
    next.record.counts field + outstanding calls usage next.remaining field =
      state.record.counts field + outstanding calls usage state.remaining field := by
  obtain ⟨write, rest, hremaining, hrecord, hnext⟩ := eq_of_step hstep
  rw [hrecord, hnext, counts_write, add_assoc, outstanding_update hremaining]

theorem counts_run {final : State CallId} {schedule : List CallId}
    (hrun : (system calls usage).run state schedule = some final) :
    final.record.counts field + outstanding calls usage final.remaining field =
      state.record.counts field + outstanding calls usage state.remaining field := by
  refine @TransitionSystem.invariant_of_run _ _ (system calls usage) (fun reached =>
    reached.record.counts field + outstanding calls usage reached.remaining field =
      state.record.counts field + outstanding calls usage state.remaining field) ?_ _ _ _ rfl hrun
  intro before call after hinv hstep
  exact (counts_step hstep).trans hinv

/-- What a call adds to a count of tokens. -/
def reported (calls : CallId → Call) (usage : CallId → Usage) (field : CountField) (call : CallId) :
    ℕ :=
  if (calls call).reports then amount (calls call) (usage call) field else 0

omit [DecidableEq CallId] in
theorem outstanding_writes (hfield : field ≠ .errors) :
    outstanding calls usage (fun call => (calls call).writes) field =
      ∑ call, reported calls usage field call := by
  refine Finset.sum_congr rfl ?_
  intro call _
  have hcount : (calls call).writes.count (.count field) =
      if (calls call).reports then 1 else 0 := by
    rw [Call.writes]
    cases (calls call).prompt <;> cases (calls call).reports <;> cases field <;>
      first | rfl | exact absurd rfl hfield
  rw [hcount, reported]
  split_ifs
  · rw [one_mul]
  · rw [zero_mul]

theorem counts_final {final : State CallId} {schedule : List CallId} (hfield : field ≠ .errors)
    (hrun : (system calls usage).run (initial calls) schedule = some final)
    (hdone : final.remaining = fun _ => []) :
    final.record.counts field = ∑ call, reported calls usage field call := by
  have hnothing : outstanding calls usage (fun _ => []) field = 0 := by
    refine Finset.sum_eq_zero ?_
    intro call _
    rw [List.count_nil, zero_mul]
  have hcounts := @counts_run _ _ _ _ _ field _ _ _ hrun
  rw [hdone, hnothing, add_zero] at hcounts
  rw [hcounts, ← outstanding_writes hfield]
  exact Nat.zero_add _

/-- The record is priced as if every call had the prices of the model and prefix left in it. -/
theorem tokenCost_eq {table : Table} {final : State CallId} {schedule : List CallId}
    (hrun : (system calls usage).run (initial calls) schedule = some final)
    (hdone : final.remaining = fun _ => []) :
    tokenCost table final.record =
      ∑ call, (effectivePrices table final.record.model (final.record.pricePrefix.getD [])).cost
        (reported calls usage .inputTokenCount call) (reported calls usage .outputTokenCount call)
        (reported calls usage .inputCacheTokens call)
        (reported calls usage .inputCacheWriteTokens call) := by
  have hcounts : ∀ {field : CountField}, field ≠ .errors →
      final.record.counts field = ∑ call, reported calls usage field call :=
    fun hfield => counts_final hfield hrun hdone
  rw [tokenCost, computeTokenCost_eq, hcounts (by rintro ⟨⟩), hcounts (by rintro ⟨⟩),
    hcounts (by rintro ⟨⟩), hcounts (by rintro ⟨⟩), Nat.cast_sum, Nat.cast_sum, Nat.cast_sum,
    Nat.cast_sum, Prices.cost_sum]

def Call.prices (table : Table) (call : Call) : Prices :=
  effectivePrices table (some call.model) (call.pricePrefix.getD [])

omit [DecidableEq CallId] [Fintype CallId] in
theorem callCost_eq {table : Table} (call : CallId) :
    callCost table (calls call) (usage call) = ((calls call).prices table).cost
      (reported calls usage .inputTokenCount call) (reported calls usage .outputTokenCount call)
      (reported calls usage .inputCacheTokens call)
      (reported calls usage .inputCacheWriteTokens call) := by
  rw [callCost]
  split_ifs with hreports
  · simp only [reported, if_pos hreports]
    exact computeTokenCost_eq _ _ _ _ _ _ _
  · simp [reported, hreports, Prices.cost]

/-- The token counts of one call, and none for the others. -/
def only (call : CallId) (counts : Usage) (other : CallId) : Usage :=
  if other = call then counts else ⟨0, 0, 0, 0, 0⟩

theorem cost_sum_only (prices : CallId → Prices) (counts : Usage)
    (hreports : (calls call).reports = true) :
    ∑ other, (prices other).cost
        (reported calls (only call counts) .inputTokenCount other)
        (reported calls (only call counts) .outputTokenCount other)
        (reported calls (only call counts) .inputCacheTokens other)
        (reported calls (only call counts) .inputCacheWriteTokens other) =
      (prices call).cost counts.input counts.output counts.cacheRead counts.cacheWrite := by
  rw [Finset.sum_eq_single_of_mem call (Finset.mem_univ call)]
  · simp [reported, hreports, only, amount]
  · intro other _ hne
    simp [reported, only, hne, amount, Prices.cost]

/-- In a run of all commands of the calls, the cost of the record is the sum of the calls' costs,
whatever their token counts are, just when every call with tokens has the prices of the model and
the prefix that are left in the record. -/
theorem tokenCost_sum_iff {table : Table} {final : State CallId} {schedule : List CallId}
    (hrun : (system calls usage).run (initial calls) schedule = some final)
    (hdone : final.remaining = fun _ => []) :
    (∀ counts after, (system calls counts).run (initial calls) schedule = some after →
        tokenCost table after.record = ∑ call, callCost table (calls call) (counts call)) ↔
      ∀ call, (calls call).reports = true → (calls call).prices table =
        effectivePrices table final.record.model (final.record.pricePrefix.getD []) := by
  have hafter : ∀ counts : CallId → Usage, ∃ after,
      (system calls counts).run (initial calls) schedule = some after ∧ SameShape final after :=
    fun counts => sameShape_run ⟨rfl, rfl, rfl⟩ hrun
  constructor
  · intro hsum call hreports
    refine (Prices.eq_of_cost ?_).symm
    intro input output cacheRead cacheWrite
    let counts : Usage := ⟨input, output, 0, cacheRead, cacheWrite⟩
    obtain ⟨after, hrunAfter, hsame⟩ := hafter (only call counts)
    have hcost := hsum (only call counts) after hrunAfter
    rw [tokenCost_eq hrunAfter (hsame.remaining.symm.trans hdone), ← hsame.model,
      ← hsame.pricePrefix] at hcost
    simp only [callCost_eq] at hcost
    have hleft := cost_sum_only (fun _ => effectivePrices table final.record.model
      (final.record.pricePrefix.getD [])) counts hreports
    have hright := cost_sum_only (fun other => (calls other).prices table) counts hreports
    exact hleft.symm.trans (hcost.trans hright)
  · intro hprices counts after hrunAfter
    obtain ⟨after', hrun', hsame⟩ := hafter counts
    rw [hrunAfter, Option.some_inj] at hrun'
    subst hrun'
    rw [tokenCost_eq hrunAfter (hsame.remaining.symm.trans hdone), ← hsame.model,
      ← hsame.pricePrefix]
    refine Finset.sum_congr rfl ?_
    intro call _
    rw [callCost_eq]
    by_cases hreports : (calls call).reports = true
    · rw [hprices call hreports]
    · simp [reported, hreports, Prices.cost]

end Runs

/-! ### Two calls -/

def twoPrices : Table where
  isDecimal := Char.isDigit
  costs modelId :=
    if modelId = "small".toList then some ⟨1, 2, 1, 1⟩
    else if modelId = "large".toList then some ⟨10, 20, 10, 10⟩ else none

def callOf (model : String) : Call where
  model := model.toList
  pricePrefix := none
  prompt := none
  isError := false
  reports := true

def thousand : Usage :=
  ⟨1000, 1000, 2000, 0, 0⟩

/-- One call after the other. -/
def inTurn : List Bool :=
  List.replicate 8 false ++ List.replicate 8 true

def sameModel (_ : Bool) : Call :=
  callOf "small"

theorem tokenCost_sum_iff_sameModel :
    ∃ final, (system sameModel fun _ => thousand).run (initial sameModel) inTurn = some final ∧
      ((∀ counts after, (system sameModel counts).run (initial sameModel) inTurn = some after →
          tokenCost twoPrices after.record =
            ∑ call, callCost twoPrices (sameModel call) (counts call)) ↔
        ∀ call, (sameModel call).reports = true → (sameModel call).prices twoPrices =
          effectivePrices twoPrices final.record.model (final.record.pricePrefix.getD [])) := by
  have hend : ((system sameModel fun _ => thousand).run (initial sameModel) inTurn).map
      (fun final => (final.remaining false, final.remaining true)) = some ([], []) := by
    decide +kernel
  obtain ⟨final, hrun, hremaining⟩ := Option.map_eq_some_iff.mp hend
  obtain ⟨hfirst, hsecond⟩ := Prod.mk.injEq _ _ _ _ ▸ hremaining
  have hdone : final.remaining = fun _ => [] := by
    funext call
    cases call
    · exact hfirst
    · exact hsecond
  exact ⟨final, hrun, tokenCost_sum_iff hrun hdone⟩

def twoModels : Bool → Call
  | false => callOf "large"
  | true => callOf "small"

/-- The calls cost 0.033 together, the record says 0.006. -/
theorem not_sum_twoModels :
    ((system twoModels fun _ => thousand).run (initial twoModels) inTurn).map
        (fun final =>
          (tokenCost twoPrices final.record, final.remaining false, final.remaining true)) =
        some (6 / 1000, [], []) ∧
      ∑ call, callCost twoPrices (twoModels call) thousand = 33 / 1000 := by
  decide +kernel

end CanyonOS.Gateway.Pricing
