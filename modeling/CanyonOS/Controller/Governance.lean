import Mathlib
import CanyonOS.Lib.JsonValue

/-!
# The governance snapshot

`governance.load`: the policy rules, the per-agent rules the dashboard edits, each agent's spend and
the agents up, read and validated in one go, and what a replica does when reading them raises.
-/

namespace CanyonOS.Governance

open CodePoints JsonValue

abbrev Bytes := List UInt8

inductive PyError where
  | valueError (message : CodePoints)
  | overflowError
  | recursionError

/-! ### Times -/

/-- Microseconds in a day. -/
def dayLength : ℕ := 86400000000

/-- Microseconds from the start of year 1 to the end of year 9999. -/
def timeLimit : ℕ := 3652059 * dayLength

/-- A `datetime`: its own clock, and how far that is ahead of UTC. -/
structure Datetime where
  clock : ℕ
  offset : Option Int
  clock_lt : clock < timeLimit

def daysBeforeMonth : List ℕ := [0, 31, 59, 90, 120, 151, 181, 212, 243, 273, 304, 334]

/-- Year, month and day of a day counted from the first of year 1. -/
def civil (day : ℕ) : ℕ × ℕ × ℕ :=
  let inEra := day % 146097
  let inCentury := inEra % 36524
  let inCycle := inCentury % 1461
  let inYear := inCycle % 365
  let century := inEra / 36524
  let cycle := inCentury / 1461
  let yearInCycle := inCycle / 365
  let year := day / 146097 * 400 + 1 + century * 100 + cycle * 4 + yearInCycle
  if yearInCycle = 4 ∨ century = 4 then (year - 1, 12, 31)
  else
    let leap := yearInCycle = 3 ∧ (cycle ≠ 24 ∨ century = 3)
    let before (month : ℕ) : ℕ :=
      daysBeforeMonth.getD (month - 1) 0 + if 2 < month ∧ leap then 1 else 0
    let estimate := (inYear + 50) / 32
    let month := if inYear < before estimate then estimate - 1 else estimate
    (year, month, inYear - before month + 1)

def digits (width value : ℕ) : List Char :=
  (Nat.toDigits 10 value).leftpad width '0'

/-- `isoformat(timespec="milliseconds")`, with `Z` for the offset. -/
def isoformat (clock : ℕ) : CodePoints :=
  let (year, month, day) := civil (clock / dayLength)
  let millisecond := clock % dayLength / 1000
  (digits 4 year ++ ['-'] ++ digits 2 month ++ ['-'] ++ digits 2 day ++ ['T'] ++
    digits 2 (millisecond / 3600000) ++ [':'] ++ digits 2 (millisecond / 60000 % 60) ++ [':'] ++
    digits 2 (millisecond / 1000 % 60) ++ ['.'] ++ digits 3 (millisecond % 1000) ++ ['Z']).map ofChar

/-- A time without an offset is taken for UTC. -/
def Datetime.utc (instant : Datetime) : Int :=
  instant.clock - instant.offset.getD 0

/-- The instant is in a year that a `datetime` in UTC can hold. -/
def Datetime.InRange (instant : Datetime) : Prop :=
  0 ≤ instant.utc ∧ instant.utc < timeLimit

instance : DecidablePred Datetime.InRange := fun instant =>
  inferInstanceAs (Decidable (0 ≤ instant.utc ∧ instant.utc < timeLimit))

def utcText (instant : Datetime) : Except PyError CodePoints :=
  if instant.InRange then .ok (isoformat instant.utc.toNat) else .error .overflowError

/-! ### The rules -/

inductive Action where
  | deny
  | switchModel (model : CodePoints)

structure SpendRule where
  aboveUsd : JsonValue
  action : Action

structure Spend where
  rules : List SpendRule
  since : Option CodePoints

/-- An agent's rules; a key that is not there is `none`. -/
structure AgentRules where
  requires : Option (List CodePoints)
  spend : Option (Option Spend)

structure Rules where
  policy : JsonValue
  agents : List (CodePoints × AgentRules)
  spend : List (CodePoints × FloatValue)
  up : List CodePoints

/-- What is stored under the four keys; the agents up are a set of names. -/
structure Stored where
  policy : Option Bytes
  config : Option Bytes
  spend : Option Bytes
  up : List CodePoints

def invalid {α : Type} (path : CodePoints) (problem : String) : Except PyError α :=
  .error (.valueError (path ++ ofString problem))

/-- A number, no truth value, that does not compare as zero or less. -/
def isPositive : JsonValue → Bool
  | .int value => 0 < value
  | .float (.finite value) => 0 < value
  | .float (.infinity negative) => !negative
  | .float .nan => true
  | .null | .bool _ | .str _ | .list _ | .dict _ => false

def spendRule (rule : JsonValue) (path : CodePoints) : Except PyError SpendRule :=
  match rule with
  | .dict rule =>
      match (get rule (ofString "above_usd")).filter isPositive with
      | none => invalid path ".above_usd: must be a positive number"
      | some aboveUsd =>
          match get rule (ofString "action") with
          | some (.dict action) =>
              match get action (ofString "kind") with
              | some (.str kind) =>
                  if kind = ofString "deny" then .ok { aboveUsd, action := .deny }
                  else if kind = ofString "switch_model" then
                    match get action (ofString "model") with
                    | some (.str model) =>
                        if model = [] then
                          invalid path ".action.model: switch_model needs a model id"
                        else .ok { aboveUsd, action := .switchModel model }
                    | _ => invalid path ".action.model: switch_model needs a model id"
                  else invalid path ".action.kind: must be one of switch_model, deny"
              | _ => invalid path ".action.kind: must be one of switch_model, deny"
          | _ => invalid path ".action.kind: must be one of switch_model, deny"
  | _ => invalid path ": must be a mapping"

def spendRules (path : CodePoints) : ℕ → List JsonValue → Except PyError (List SpendRule)
  | _, [] => .ok []
  | index, rule :: rules => do
      let parsed ← spendRule rule (path ++ ofString s!".spend.rules[{index}]")
      let rest ← spendRules path (index + 1) rules
      .ok (parsed :: rest)

/-- A non-empty string. -/
def agentName : JsonValue → Option CodePoints
  | .str name => if name = [] then none else some name
  | _ => none

def requiresOf (rules : List (CodePoints × JsonValue)) (path : CodePoints) :
    Except PyError (Option (List CodePoints)) :=
  match get rules (ofString "requires") with
  | none => .ok none
  | some (.list names) =>
      match names.mapM agentName with
      | some names => .ok (some names)
      | none => invalid path ".requires: must be a list of agent names"
  | some _ => invalid path ".requires: must be a list of agent names"

section Reading

-- the standard library's parsers, and how it prints a string in a message
variable (loads : Bytes → Loaded) (fromisoformat : CodePoints → Option Datetime)
  (repr : CodePoints → CodePoints)

def replaceZ (text : CodePoints) : CodePoints :=
  text.flatMap fun codePoint =>
    if codePoint = ofChar 'Z' then ofString "+00:00" else [codePoint]

def since (value : JsonValue) (path : CodePoints) : Except PyError CodePoints :=
  match value with
  | .str text =>
      match fromisoformat (replaceZ text) with
      | some instant => utcText instant
      | none =>
          invalid (path ++ ofString ".spend.since: " ++ repr text) " is not an ISO-8601 date-time"
  | _ => invalid path ".spend.since: must be an ISO-8601 date-time"

def sinceOf (spend : List (CodePoints × JsonValue)) (path : CodePoints) :
    Except PyError (Option CodePoints) :=
  match get spend (ofString "since") with
  | none | some .null => .ok none
  | some value => (since fromisoformat repr value path).map some

def spendOf (rules : List (CodePoints × JsonValue)) (path : CodePoints) :
    Except PyError (Option (Option Spend)) :=
  match get rules (ofString "spend") with
  | none => .ok none
  | some .null => .ok (some none)
  | some (.dict spend) =>
      match get spend (ofString "rules") with
      | some (.list rules) => do
          let rules ← spendRules path 0 rules
          let since ← sinceOf fromisoformat repr spend path
          .ok (some (some { rules, since }))
      | _ => invalid path ".spend.rules: must be a list"
  | some _ => invalid path ".spend: must be a mapping"

def agentRules (rules : JsonValue) (path : CodePoints) : Except PyError AgentRules :=
  match rules with
  | .dict rules => do
      let requires ← requiresOf rules path
      let spend ← spendOf fromisoformat repr rules path
      .ok { requires, spend }
  | _ => invalid path ": must be a mapping"

def parseAgents : List (CodePoints × JsonValue) → Except PyError (List (CodePoints × AgentRules))
  | [] => .ok []
  | (name, rules) :: agents => do
      let parsed ← agentRules fromisoformat repr rules (ofString "governance.yaml: agents." ++ name)
      let rest ← parseAgents agents
      .ok ((name, parsed) :: rest)

def parse (config : JsonValue) : Except PyError (List (CodePoints × AgentRules)) :=
  match config with
  | .dict config =>
      match get config (ofString "agents") with
      | none | some .null => .ok []
      | some (.dict agents) => parseAgents fromisoformat repr agents
      | some _ => invalid [] "governance.yaml: agents: must be a mapping of agent names"
  | _ => invalid [] "governance.yaml: must be a mapping with an `agents:` mapping"

/-- A missing or empty value is not parsed. -/
def present (raw : Option Bytes) : Option Bytes :=
  raw.filter (· ≠ [])

def loadJson (raw : Bytes) : Except PyError JsonValue :=
  match loads raw with
  | .value value => .ok value
  | .valueError => .error (.valueError [])
  | .recursionError => .error .recursionError

/-! ### Numbers -/

/-- From here on an integer rounds to more than the largest double. -/
def doubleLimit : ℕ := 2 ^ 1024 - 2 ^ 970

/-- The nearest number of 53 bits, the even one of two. -/
def roundToDouble (value : ℕ) : ℕ :=
  let unit := 2 ^ (Nat.log2 value - 52)
  let quotient := value / unit
  let remainder := value % unit
  if unit < 2 * remainder ∨ (unit = 2 * remainder ∧ quotient % 2 = 1) then (quotient + 1) * unit
  else quotient * unit

def floatOfInt (value : Int) : Except PyError FloatValue :=
  if value.natAbs < doubleLimit then
    .ok (.finite ((value.sign * roundToDouble value.natAbs : Int) : ℚ))
  else .error .overflowError

/-- `float(usd)` of an entry that is a number. -/
def usdOf : CodePoints × JsonValue → Option (Except PyError (CodePoints × FloatValue))
  | (name, .int usd) => some ((floatOfInt usd).map (name, ·))
  | (name, .float usd) => some (.ok (name, usd))
  | (_, .null) | (_, .bool _) | (_, .str _) | (_, .list _) | (_, .dict _) => none

def spendOfAgents :
    List (CodePoints × JsonValue) → Except PyError (List (CodePoints × FloatValue))
  | [] => .ok []
  | entry :: entries =>
      match usdOf entry with
      | none => spendOfAgents entries
      | some usd => do
          let usd ← usd
          let rest ← spendOfAgents entries
          .ok (usd :: rest)

/-! ### Loading -/

def spend (raw : Option Bytes) : Except PyError (List (CodePoints × FloatValue)) :=
  match present raw with
  | none => .ok []
  | some raw =>
      match loadJson loads raw with
      | .ok (.dict entries) => spendOfAgents entries
      | .ok _ => .ok []
      | .error (.valueError _) => .ok []
      | .error error => .error error

def agents (raw : Option Bytes) (previous : Option Rules) :
    Except PyError (List (CodePoints × AgentRules)) :=
  match present raw with
  | none => .ok []
  | some raw =>
      match loadJson loads raw >>= parse fromisoformat repr with
      | .ok agents => .ok agents
      | .error (.valueError _) => .ok ((previous.map Rules.agents).getD [])
      | .error error => .error error

def policy (raw : Option Bytes) : Except PyError JsonValue :=
  match present raw with
  | none => .ok (.list [])
  | some raw => loadJson loads raw

def load (stored : Stored) (previous : Option Rules) : Except PyError Rules := do
  let policy ← policy loads stored.policy
  let agents ← agents loads fromisoformat repr stored.config previous
  let spend ← spend loads stored.spend
  .ok { policy, agents, spend, up := stored.up }

/-- A replica's rules as it starts: none at all when they can't be loaded, so every call is
admitted. -/
def startRules (stored : Stored) : Rules :=
  match load loads fromisoformat repr stored none with
  | .ok rules => rules
  | .error _ => { policy := .list [], agents := [], spend := [], up := [] }

/-! ### What a snapshot must be -/

/-- The stored per-agent rules, when they parse. -/
def storedAgents (raw : Option Bytes) : Option (List (CodePoints × AgentRules)) :=
  match present raw with
  | none => some []
  | some raw =>
      match loads raw with
      | .value config => (parse fromisoformat repr config).toOption
      | .valueError | .recursionError => none

/-- The stored spend that can be read. -/
def storedSpend (raw : Option Bytes) : List (CodePoints × FloatValue) :=
  match (present raw).map loads with
  | some (.value (.dict entries)) =>
      entries.filterMap fun entry => (usdOf entry).bind Except.toOption
  | _ => []

/-- A snapshot is loaded, whatever else is stored beside these policy rules. -/
structure Survives (stored : Stored) (previous : Option Rules) (policy : JsonValue) : Prop where
  loaded : load loads fromisoformat repr stored previous =
    .ok { policy
          agents := (storedAgents loads fromisoformat repr stored.config).getD
            ((previous.map Rules.agents).getD [])
          spend := storedSpend loads stored.spend
          up := stored.up }
  started : (startRules loads fromisoformat repr stored).policy = policy

/-- The rules are valid up to their `since`, which no year of a `datetime` in UTC holds. -/
def SinceOutOfRange (rules : JsonValue) (path : CodePoints) : Prop :=
  ∃ entries, rules = .dict entries ∧ (∃ requires, requiresOf entries path = .ok requires) ∧
    ∃ spend, get entries (ofString "spend") = some (.dict spend) ∧
      (∃ items parsed, get spend (ofString "rules") = some (.list items) ∧
        spendRules path 0 items = .ok parsed) ∧
      ∃ text instant, get spend (ofString "since") = some (.str text) ∧
        fromisoformat (replaceZ text) = some instant ∧ ¬ instant.InRange

/-- The first thing wrong with the document is such a `since`. -/
def ConfigOutOfRange (config : JsonValue) : Prop :=
  ∃ entries before name rules after, config = .dict entries ∧
    get entries (ofString "agents") = some (.dict (before ++ (name, rules) :: after)) ∧
    (∃ parsed, parseAgents fromisoformat repr before = .ok parsed) ∧
    SinceOutOfRange fromisoformat rules (ofString "governance.yaml: agents." ++ name)

/-- Neither text is nested too deep for the parser, no valid `since` is out of range, and no spend is
an integer beyond the doubles. -/
structure Readable (stored : Stored) : Prop where
  config : ∀ raw ∈ present stored.config, loads raw ≠ .recursionError ∧
    ∀ config, loads raw = .value config → ¬ ConfigOutOfRange fromisoformat repr config
  spend : ∀ raw ∈ present stored.spend, loads raw ≠ .recursionError ∧
    ∀ entries, loads raw = .value (.dict entries) →
      ∀ name usd, (name, .int usd) ∈ entries → usd.natAbs < doubleLimit

variable {loads : Bytes → Loaded} {fromisoformat : CodePoints → Option Datetime}
  {repr : CodePoints → CodePoints}

/-! ### What validation raises -/

def PyError.IsValueError : PyError → Prop
  | .valueError _ => True
  | .overflowError | .recursionError => False

theorem bind_eq_error {α β : Type} {value : Except PyError α} {next : α → Except PyError β}
    {error : PyError} :
    (value >>= next) = .error error ↔
      value = .error error ∨ ∃ result, value = .ok result ∧ next result = .error error := by
  cases value with
  | error raised =>
      change Except.error raised = Except.error error ↔ _
      simp
  | ok result =>
      change next result = Except.error error ↔ _
      simp

theorem isValueError_of_invalid {α : Type} {path : CodePoints} {problem : String}
    {error : PyError} (hinvalid : (invalid path problem : Except PyError α) = .error error) :
    error.IsValueError := by
  cases hinvalid
  trivial

theorem isValueError_of_spendRule {rule : JsonValue} {path : CodePoints} {error : PyError}
    (herror : spendRule rule path = .error error) : error.IsValueError := by
  unfold spendRule at herror
  repeat' split at herror
  all_goals first
    | exact isValueError_of_invalid herror
    | cases herror

theorem isValueError_of_spendRules {path : CodePoints} {rules : List JsonValue} {index : ℕ}
    {error : PyError} (herror : spendRules path index rules = .error error) :
    error.IsValueError := by
  induction rules generalizing index with
  | nil => cases herror
  | cons rule rules ih =>
      rcases bind_eq_error.mp herror with hrule | ⟨parsed, -, hrest⟩
      · exact isValueError_of_spendRule hrule
      · rcases bind_eq_error.mp hrest with hrules | ⟨others, -, hok⟩
        · exact ih hrules
        · cases hok

theorem isValueError_of_requiresOf {rules : List (CodePoints × JsonValue)} {path : CodePoints}
    {error : PyError} (herror : requiresOf rules path = .error error) : error.IsValueError := by
  unfold requiresOf at herror
  repeat' split at herror
  all_goals first
    | exact isValueError_of_invalid herror
    | cases herror

/-- Validation raises a ValueError, or overflows where it forms the UTC text of a time. -/
def Overflows {α : Type} (value : Except PyError α) (cause : Prop) : Prop :=
  (value = .error .overflowError ↔ cause) ∧
    ∀ error, value = .error error → error.IsValueError ∨ error = .overflowError

theorem Overflows.congr {α : Type} {value : Except PyError α} {first second : Prop}
    (hoverflows : Overflows value first) (hiff : first ↔ second) : Overflows value second :=
  ⟨hoverflows.1.trans hiff, hoverflows.2⟩

theorem overflows_utcText (instant : Datetime) :
    Overflows (utcText instant) (¬ instant.InRange) := by
  unfold utcText
  by_cases hrange : instant.InRange
  · rw [if_pos hrange]
    exact ⟨by simp [hrange], fun error herror => (by cases herror)⟩
  · rw [if_neg hrange]
    refine ⟨by simp [hrange], fun error herror => ?_⟩
    cases herror
    exact .inr rfl

theorem overflows_of_invalid {α : Type} {path : CodePoints} {problem : String} {cause : Prop}
    (hcause : ¬ cause) : Overflows (invalid path problem : Except PyError α) cause := by
  refine ⟨⟨fun herror => (by cases herror), fun hc => absurd hc hcause⟩, fun error herror => ?_⟩
  exact .inl (isValueError_of_invalid herror)

theorem overflows_of_ok {α : Type} {value : α} {cause : Prop} (hcause : ¬ cause) :
    Overflows (.ok value) cause :=
  ⟨⟨fun herror => (by cases herror), fun hc => absurd hc hcause⟩,
    fun error herror => (by cases herror)⟩

theorem overflows_since (value : JsonValue) (path : CodePoints) :
    Overflows (since fromisoformat repr value path)
      (∃ text instant, value = .str text ∧ fromisoformat (replaceZ text) = some instant ∧
        ¬ instant.InRange) := by
  unfold since
  cases value with
  | str text =>
      cases hinstant : fromisoformat (replaceZ text) with
      | some instant =>
          simp only [hinstant]
          refine (overflows_utcText instant).congr ⟨fun hrange => ?_, ?_⟩
          · exact ⟨text, instant, rfl, hinstant, hrange⟩
          · rintro ⟨other, found, heq, hfound, hrange⟩
            cases heq
            rw [hinstant] at hfound
            cases hfound
            exact hrange
      | none =>
          simp only [hinstant]
          refine overflows_of_invalid ?_
          rintro ⟨other, found, heq, hfound, -⟩
          cases heq
          rw [hinstant] at hfound
          cases hfound
  | null | bool | int | float | list | dict =>
      refine overflows_of_invalid ?_
      rintro ⟨other, found, heq, -⟩
      cases heq

/-- Two steps: the first overflows, or the second on what the first gives. -/
theorem overflows_bind {α β : Type} {first : Except PyError α} {next : α → Except PyError β}
    {cause : Prop} {causeNext : α → Prop} (hfirst : Overflows first cause)
    (hnext : ∀ value, Overflows (next value) (causeNext value)) :
    Overflows (first >>= next) (cause ∨ ∃ value, first = .ok value ∧ causeNext value) := by
  constructor
  · rw [bind_eq_error, hfirst.1]
    exact or_congr_right (exists_congr fun value => and_congr_right fun _ => (hnext value).1)
  · intro error herror
    rcases bind_eq_error.mp herror with herror | ⟨value, -, herror⟩
    · exact hfirst.2 error herror
    · exact (hnext value).2 error herror

theorem overflows_false {α : Type} {value : Except PyError α}
    (herror : ∀ error, value = .error error → error.IsValueError) : Overflows value False := by
  refine ⟨⟨fun hoverflow => ?_, False.elim⟩, fun error hvalue => .inl (herror error hvalue)⟩
  exact herror _ hoverflow

/-- A step that raises only a ValueError, before one that may overflow. -/
theorem overflows_bind_of_isValueError {α β : Type} {first : Except PyError α}
    {next : α → Except PyError β} {cause : α → Prop}
    (hfirst : ∀ error, first = .error error → error.IsValueError)
    (hnext : ∀ value, Overflows (next value) (cause value)) :
    Overflows (first >>= next) (∃ value, first = .ok value ∧ cause value) :=
  (overflows_bind (overflows_false hfirst) hnext).congr (iff_of_eq (false_or _))

/-- A step that may overflow, before one that raises nothing. -/
theorem overflows_bind_ok {α β : Type} {first : Except PyError α} {next : α → β} {cause : Prop}
    (hfirst : Overflows first cause) : Overflows (first >>= fun value => .ok (next value)) cause := by
  have herror : ∀ error, (first >>= fun value => .ok (next value)) = .error error ↔
      first = .error error := by
    intro error
    rw [bind_eq_error]
    constructor
    · rintro (herror | ⟨value, -, herror⟩)
      · exact herror
      · cases herror
    · exact .inl
  exact ⟨(herror _).trans hfirst.1, fun error h => hfirst.2 error ((herror error).mp h)⟩

/-- The `since` of a spend mapping is a time out of range. -/
def SinceOf (fromisoformat : CodePoints → Option Datetime)
    (spend : List (CodePoints × JsonValue)) : Prop :=
  ∃ text instant, get spend (ofString "since") = some (.str text) ∧
    fromisoformat (replaceZ text) = some instant ∧ ¬ instant.InRange

theorem overflows_sinceOf (spend : List (CodePoints × JsonValue)) (path : CodePoints) :
    Overflows (sinceOf fromisoformat repr spend path) (SinceOf fromisoformat spend) := by
  unfold sinceOf SinceOf
  cases hsince : get spend (ofString "since") with
  | none =>
      refine overflows_of_ok ?_
      rintro ⟨text, instant, hget, -⟩
      cases hget
  | some value =>
      have hvalue : Overflows ((since fromisoformat repr value path).map some)
          (∃ text instant, some value = some (.str text) ∧
            fromisoformat (replaceZ text) = some instant ∧ ¬ instant.InRange) := by
        refine (overflows_bind_ok (overflows_since value path)).congr ?_
        simp only [Option.some.injEq]
      cases value with
      | null =>
          refine overflows_of_ok ?_
          rintro ⟨text, instant, hget, -⟩
          cases hget
      | str | bool | int | float | list | dict => exact hvalue

theorem overflows_spendOf (rules : List (CodePoints × JsonValue)) (path : CodePoints) :
    Overflows (spendOf fromisoformat repr rules path)
      (∃ spend, get rules (ofString "spend") = some (.dict spend) ∧
        (∃ items parsed, get spend (ofString "rules") = some (.list items) ∧
          spendRules path 0 items = .ok parsed) ∧ SinceOf fromisoformat spend) := by
  unfold spendOf
  cases hspend : get rules (ofString "spend") with
  | none =>
      refine overflows_of_ok ?_
      rintro ⟨spend, hget, -⟩
      cases hget
  | some value =>
      cases value with
      | null =>
          refine overflows_of_ok ?_
          rintro ⟨spend, hget, -⟩
          cases hget
      | str | bool | int | float | list =>
          refine overflows_of_invalid ?_
          rintro ⟨spend, hget, -⟩
          cases hget
      | dict spend =>
          cases hrules : get spend (ofString "rules") with
          | none =>
              simp only [hrules]
              refine overflows_of_invalid ?_
              rintro ⟨other, hget, ⟨items, parsed, hitems, -⟩, -⟩
              cases hget
              rw [hrules] at hitems
              cases hitems
          | some items =>
              cases items with
              | list items =>
                  simp only [hrules]
                  refine (overflows_bind_of_isValueError (fun _ => isValueError_of_spendRules)
                    fun parsed => overflows_bind_ok (overflows_sinceOf spend path)).congr ?_
                  constructor
                  · rintro ⟨parsed, hparsed, hsince⟩
                    exact ⟨spend, rfl, ⟨items, parsed, hrules, hparsed⟩, hsince⟩
                  · rintro ⟨other, hget, ⟨others, parsed, hothers, hparsed⟩, hsince⟩
                    cases hget
                    rw [hrules] at hothers
                    cases hothers
                    exact ⟨parsed, hparsed, hsince⟩
              | null | str | bool | int | float | dict =>
                  simp only [hrules]
                  refine overflows_of_invalid ?_
                  rintro ⟨other, hget, ⟨items, parsed, hitems, -⟩, -⟩
                  cases hget
                  rw [hrules] at hitems
                  cases hitems

theorem overflows_agentRules (rules : JsonValue) (path : CodePoints) :
    Overflows (agentRules fromisoformat repr rules path)
      (SinceOutOfRange fromisoformat rules path) := by
  unfold agentRules
  cases rules with
  | dict entries =>
      refine (overflows_bind_of_isValueError (fun _ => isValueError_of_requiresOf)
        fun requires => overflows_bind_ok (overflows_spendOf entries path)).congr ?_
      constructor
      · rintro ⟨requires, hrequires, spend, hspend, hrules, hsince⟩
        exact ⟨entries, rfl, ⟨requires, hrequires⟩, spend, hspend, hrules, hsince⟩
      · rintro ⟨others, heq, ⟨requires, hrequires⟩, spend, hspend, hrules, hsince⟩
        cases heq
        exact ⟨requires, hrequires, spend, hspend, hrules, hsince⟩
  | null | str | bool | int | float | list =>
      refine overflows_of_invalid ?_
      rintro ⟨entries, heq, -⟩
      cases heq

/-- The first agent whose rules do not parse has a `since` out of range. -/
theorem overflows_parseAgents (agents : List (CodePoints × JsonValue)) :
    Overflows (parseAgents fromisoformat repr agents)
      (∃ before name rules after, agents = before ++ (name, rules) :: after ∧
        (∃ parsed, parseAgents fromisoformat repr before = .ok parsed) ∧
        SinceOutOfRange fromisoformat rules (ofString "governance.yaml: agents." ++ name)) := by
  induction agents with
  | nil =>
      refine overflows_of_ok ?_
      rintro ⟨before, name, rules, after, heq, -⟩
      simp at heq
  | cons agent agents ih =>
      obtain ⟨name, rules⟩ := agent
      have hhead : Overflows
          (agentRules fromisoformat repr rules (ofString "governance.yaml: agents." ++ name))
          (SinceOutOfRange fromisoformat rules (ofString "governance.yaml: agents." ++ name)) :=
        overflows_agentRules rules _
      refine (overflows_bind hhead fun _ => overflows_bind_ok ih).congr ?_
      constructor
      · rintro (hrange | ⟨parsed, hparsed, before, other, otherRules, after, rfl, ⟨others, hothers⟩,
          hrange⟩)
        · exact ⟨[], name, rules, agents, rfl, ⟨[], rfl⟩, hrange⟩
        · refine ⟨(name, rules) :: before, other, otherRules, after, rfl, ?_, hrange⟩
          exact ⟨(name, parsed) :: others, by rw [parseAgents, hparsed, hothers]; rfl⟩
      · rintro ⟨before, other, otherRules, after, heq, ⟨parsed, hparsed⟩, hrange⟩
        cases before with
        | nil =>
            cases heq
            exact .inl hrange
        | cons first before =>
            obtain ⟨rfl, rfl⟩ := List.cons.inj heq
            right
            cases hfirst : agentRules fromisoformat repr rules
                (ofString "governance.yaml: agents." ++ name) with
            | error error =>
                rw [parseAgents, hfirst] at hparsed
                cases hparsed
            | ok value =>
                refine ⟨value, rfl, before, other, otherRules, after, rfl, ?_, hrange⟩
                cases hbefore : parseAgents fromisoformat repr before with
                | error error =>
                    rw [parseAgents, hfirst, hbefore] at hparsed
                    cases hparsed
                | ok others => exact ⟨others, rfl⟩

theorem overflows_parse (config : JsonValue) :
    Overflows (parse fromisoformat repr config) (ConfigOutOfRange fromisoformat repr config) := by
  unfold parse
  cases config with
  | dict entries =>
      cases hagents : get entries (ofString "agents") with
      | none =>
          simp only [hagents]
          refine overflows_of_ok ?_
          rintro ⟨others, before, name, rules, after, heq, hget, -⟩
          cases heq
          rw [hagents] at hget
          cases hget
      | some value =>
          cases value with
          | dict agents =>
              simp only [hagents]
              refine (overflows_parseAgents agents).congr ?_
              constructor
              · rintro ⟨before, name, rules, after, rfl, hbefore, hrange⟩
                exact ⟨entries, before, name, rules, after, rfl, hagents, hbefore, hrange⟩
              · rintro ⟨others, before, name, rules, after, heq, hget, hbefore, hrange⟩
                cases heq
                rw [hagents] at hget
                cases hget
                exact ⟨before, name, rules, after, rfl, hbefore, hrange⟩
          | null =>
              simp only [hagents]
              refine overflows_of_ok ?_
              rintro ⟨others, before, name, rules, after, heq, hget, -⟩
              cases heq
              rw [hagents] at hget
              cases hget
          | str | bool | int | float | list =>
              simp only [hagents]
              refine overflows_of_invalid ?_
              rintro ⟨others, before, name, rules, after, heq, hget, -⟩
              cases heq
              rw [hagents] at hget
              cases hget
  | null | str | bool | int | float | list =>
      refine overflows_of_invalid ?_
      rintro ⟨entries, before, name, rules, after, heq, -⟩
      cases heq

/-! ### What loading raises -/

/-- The agents' rules are the stored ones, or the previous ones, unless the parser's stack or a
`since` stops the load. -/
theorem agents_eq_ok_iff (raw : Option Bytes) (previous : Option Rules) :
    agents loads fromisoformat repr raw previous =
        .ok ((storedAgents loads fromisoformat repr raw).getD
          ((previous.map Rules.agents).getD [])) ↔
      ∀ bytes ∈ present raw, loads bytes ≠ .recursionError ∧
        ∀ config, loads bytes = .value config → ¬ ConfigOutOfRange fromisoformat repr config := by
  unfold agents storedAgents
  cases present raw with
  | none => simp
  | some bytes =>
      simp only [Option.mem_def, Option.some.injEq, forall_eq']
      unfold loadJson
      cases hloads : loads bytes with
      | valueError => simp [bind, Except.bind]
      | recursionError => simp [bind, Except.bind]
      | value config =>
          obtain ⟨hoverflow, herror⟩ : Overflows (parse fromisoformat repr config)
              (ConfigOutOfRange fromisoformat repr config) := overflows_parse config
          have hcondition : (Loaded.value config ≠ .recursionError ∧
              ∀ other, Loaded.value config = .value other →
                ¬ ConfigOutOfRange fromisoformat repr other) ↔
              parse fromisoformat repr config ≠ .error .overflowError := by
            rw [Ne, Ne, hoverflow]
            constructor
            · intro h
              exact h.2 config rfl
            · intro h
              refine ⟨fun heq => (by cases heq), fun other heq => ?_⟩
              cases heq
              exact h
          rw [hcondition]
          change (match parse fromisoformat repr config with
            | .ok agents => Except.ok agents
            | .error (.valueError _) => .ok ((previous.map Rules.agents).getD [])
            | .error error => .error error) = _ ↔ _
          cases hparse : parse fromisoformat repr config with
          | ok parsed => simp [Except.toOption, hparse]
          | error raised =>
              rcases herror raised hparse with hvalue | rfl
              · cases raised with
                | valueError message => simp [Except.toOption, hparse]
                | overflowError | recursionError => cases hvalue
              · simp

theorem bind_cons_eq_ok_iff {α : Type} {value : Except PyError (List α)} {first : α}
    {expected : List α} :
    (value >>= fun rest => Except.ok (first :: rest)) = .ok (first :: expected) ↔
      value = .ok expected := by
  cases value with
  | error raised =>
      change Except.error raised = _ ↔ _
      simp
  | ok rest =>
      change Except.ok (first :: rest) = _ ↔ _
      simp

theorem spendOfAgents_eq_ok_iff (entries : List (CodePoints × JsonValue)) :
    spendOfAgents entries =
        .ok (entries.filterMap fun entry => (usdOf entry).bind Except.toOption) ↔
      ∀ name usd, (name, .int usd) ∈ entries → usd.natAbs < doubleLimit := by
  induction entries with
  | nil => simp [spendOfAgents]
  | cons entry entries ih =>
      obtain ⟨name, value⟩ := entry
      have hother : (∀ usd, value ≠ .int usd) →
          ((∀ other usd, (other, JsonValue.int usd) ∈ (name, value) :: entries →
            usd.natAbs < doubleLimit) ↔
          ∀ other usd, (other, JsonValue.int usd) ∈ entries → usd.natAbs < doubleLimit) := by
        intro hvalue
        constructor
        · intro h other usd hmem
          exact h other usd (List.mem_cons_of_mem _ hmem)
        · intro h other usd hmem
          rcases List.mem_cons.mp hmem with heq | hmem
          · exact absurd (Prod.mk.inj heq).2.symm (hvalue usd)
          · exact h other usd hmem
      cases value with
      | null | bool | str | list | dict =>
          rw [hother fun usd heq => (by cases heq), ← ih]
          rfl
      | float usd =>
          rw [hother fun usd heq => (by cases heq), ← ih]
          exact bind_cons_eq_ok_iff
      | int usd =>
          by_cases hfits : usd.natAbs < doubleLimit
          · have hfloat : floatOfInt usd =
                .ok (.finite ((usd.sign * roundToDouble usd.natAbs : Int) : ℚ)) := if_pos hfits
            have husd : usdOf (name, .int usd) =
                some (.ok (name, .finite ((usd.sign * roundToDouble usd.natAbs : Int) : ℚ))) := by
              rw [usdOf, hfloat]
              rfl
            have hcons : (∀ other found, (other, JsonValue.int found) ∈ (name, .int usd) :: entries →
                found.natAbs < doubleLimit) ↔
                ∀ other found, (other, JsonValue.int found) ∈ entries →
                  found.natAbs < doubleLimit := by
              constructor
              · intro h other found hmem
                exact h other found (List.mem_cons_of_mem _ hmem)
              · intro h other found hmem
                rcases List.mem_cons.mp hmem with heq | hmem
                · cases heq
                  exact hfits
                · exact h other found hmem
            rw [hcons, ← ih, spendOfAgents, husd, List.filterMap_cons, husd]
            exact bind_cons_eq_ok_iff
          · apply iff_of_false
            · have husd : usdOf (name, .int usd) = some (.error .overflowError) := by
                rw [usdOf, floatOfInt, if_neg hfits]
                rfl
              rw [spendOfAgents, husd]
              intro hok
              cases hok
            · intro h
              exact hfits (h name usd List.mem_cons_self)

theorem spend_eq_ok_iff (raw : Option Bytes) :
    spend loads raw = .ok (storedSpend loads raw) ↔
      ∀ bytes ∈ present raw, loads bytes ≠ .recursionError ∧
        ∀ entries, loads bytes = .value (.dict entries) →
          ∀ name usd, (name, .int usd) ∈ entries → usd.natAbs < doubleLimit := by
  unfold spend storedSpend loadJson
  cases present raw with
  | none => simp
  | some bytes =>
      simp only [Option.mem_def, Option.some.injEq, forall_eq', Option.map_some]
      cases hloads : loads bytes with
      | valueError => simp
      | recursionError => simp
      | value document =>
          cases document with
          | dict entries =>
              simp only [spendOfAgents_eq_ok_iff]
              constructor
              · intro h
                refine ⟨fun heq => (by cases heq), fun others heq => ?_⟩
                cases heq
                exact h
              · intro h
                exact h.2 entries rfl
          | null | str | bool | int | float | list => simp

/-- The dashboard's writes leave a snapshot, for every content of them. -/
theorem load_survives_iff (loads : Bytes → Loaded) (fromisoformat : CodePoints → Option Datetime)
    (repr : CodePoints → CodePoints) (stored : Stored) (previous : Option Rules)
    (rules : JsonValue) (hpolicy : policy loads stored.policy = .ok rules) :
    Survives loads fromisoformat repr stored previous rules ↔
      Readable loads fromisoformat repr stored := by
  have hload : ∀ previous, load loads fromisoformat repr stored previous =
      (agents loads fromisoformat repr stored.config previous >>= fun agents =>
        spend loads stored.spend >>= fun spend =>
          .ok { policy := rules, agents, spend, up := stored.up }) := by
    intro previous
    rw [load, hpolicy]
    rfl
  constructor
  · rintro ⟨hloaded, -⟩
    rw [hload] at hloaded
    cases hagents : agents loads fromisoformat repr stored.config previous with
    | error raised =>
        rw [hagents] at hloaded
        cases hloaded
    | ok parsed =>
        cases hspend : spend loads stored.spend with
        | error raised =>
            rw [hagents, hspend] at hloaded
            cases hloaded
        | ok usd =>
            rw [hagents, hspend] at hloaded
            obtain ⟨-, hparsed, husd, -⟩ := Rules.mk.inj (Except.ok.inj hloaded)
            rw [hparsed] at hagents
            rw [husd] at hspend
            exact ⟨(agents_eq_ok_iff _ _).mp hagents, (spend_eq_ok_iff _).mp hspend⟩
  · rintro ⟨hconfig, husd⟩
    have hspend := (spend_eq_ok_iff stored.spend).mpr husd
    have hagents : ∀ previous, agents loads fromisoformat repr stored.config previous =
        .ok ((storedAgents loads fromisoformat repr stored.config).getD
          ((previous.map Rules.agents).getD [])) :=
      fun previous => (agents_eq_ok_iff stored.config previous).mpr hconfig
    have hloaded : ∀ previous, load loads fromisoformat repr stored previous =
        .ok { policy := rules
              agents := (storedAgents loads fromisoformat repr stored.config).getD
                ((previous.map Rules.agents).getD [])
              spend := storedSpend loads stored.spend
              up := stored.up } := by
      intro previous
      rw [hload, hagents, hspend]
      rfl
    refine ⟨hloaded previous, ?_⟩
    rw [startRules, hloaded none]

end Reading

def bytesOf (text : String) : Bytes :=
  text.toUTF8.data.toList

/-- Guests may call the chat agent and no other. -/
def guestPolicy : JsonValue :=
  .list [.dict [(ofString "match", .dict [(ofString "role", .str (ofString "guest"))]),
    (ofString "access", .list [.str (ofString "chat")])]]

def guestPolicyText : Bytes :=
  bytesOf "[\x7b\"match\": \x7b\"role\": \"guest\"\x7d, \"access\": [\"chat\"]\x7d]"

/-- An integer of 401 digits. -/
def hugeSpendText : Bytes :=
  bytesOf "\x7b\"search\": 1" ++ List.replicate 400 48 ++ bytesOf "\x7d"

/-- Fourteen hours ahead of UTC, at the start of year 1. -/
def earlySinceText : Bytes :=
  bytesOf ("\x7b\"agents\": \x7b\"search\": \x7b\"spend\": \x7b\"rules\": [], " ++
    "\"since\": \"0001-01-01T00:00:00+14:00\"\x7d\x7d\x7d\x7d")

def requiresText : Bytes :=
  bytesOf ("\x7b\"agents\": \x7b\"search\": \x7b\"requires\": [\"chat\"]\x7d\x7d\x7d")

/-- The parser, on these texts. -/
def textLoads (text : Bytes) : Loaded :=
  if text = guestPolicyText then .value guestPolicy
  else if text = hugeSpendText then .value (.dict [(ofString "search", .int (10 ^ 400))])
  else if text = earlySinceText then
    .value (.dict [(ofString "agents", .dict [(ofString "search", .dict [(ofString "spend",
      .dict [(ofString "rules", .list []),
        (ofString "since", .str (ofString "0001-01-01T00:00:00+14:00"))])])])])
  else if text = requiresText then
    .value (.dict [(ofString "agents", .dict [(ofString "search",
      .dict [(ofString "requires", .list [.str (ofString "chat")])])])])
  else .valueError

def textIsoformat (text : CodePoints) : Option Datetime :=
  if text = ofString "0001-01-01T00:00:00+14:00" then
    some { clock := 0, offset := some 50400000000, clock_lt := by decide }
  else none

def withSpend : Stored where
  policy := some guestPolicyText
  config := none
  spend := some hugeSpendText
  up := []

def withSince : Stored where
  policy := some guestPolicyText
  config := some earlySinceText
  spend := none
  up := []

theorem huge_spend_or_early_since_raises :
    policy textLoads withSpend.policy = .ok guestPolicy ∧
      ¬ Survives textLoads textIsoformat id withSpend none guestPolicy ∧
      ¬ Survives textLoads textIsoformat id withSince none guestPolicy := by
  refine ⟨rfl, fun hsurvives => ?_, fun hsurvives => ?_⟩
  · have hraised : (load textLoads textIsoformat id withSpend none).isOk = false := by
      decide +kernel
    rw [hsurvives.loaded] at hraised
    cases hraised
  · have hraised : (load textLoads textIsoformat id withSince none).isOk = false := by
      decide +kernel
    rw [hsurvives.loaded] at hraised
    cases hraised

def withRequires : Stored where
  policy := some guestPolicyText
  config := some requiresText
  spend := some (bytesOf "no spend")
  up := [ofString "chat"]

/-- The agent rules are read, and the spend that is no JSON counts as none. -/
theorem load_survives_requires :
    Survives textLoads textIsoformat id withRequires none guestPolicy := by
  refine (load_survives_iff textLoads textIsoformat id withRequires none guestPolicy rfl).mpr
    ⟨fun raw hraw => ?_, fun raw hraw => ?_⟩
  · obtain rfl : requiresText = raw := Option.some.inj hraw
    have hloads : textLoads requiresText = .value (.dict [(ofString "agents",
        .dict [(ofString "search", .dict [(ofString "requires",
          .list [.str (ofString "chat")])])])]) := rfl
    rw [hloads]
    refine ⟨fun heq => (by cases heq), fun config heq hrange => ?_⟩
    have hraised : parse textIsoformat id config = .error .overflowError :=
      (overflows_parse config).1.mpr hrange
    cases heq
    cases hraised
  · obtain rfl : bytesOf "no spend" = raw := Option.some.inj hraw
    have hloads : textLoads (bytesOf "no spend") = .valueError := rfl
    rw [hloads]
    exact ⟨fun heq => (by cases heq), fun entries heq => (by cases heq)⟩

end CanyonOS.Governance
