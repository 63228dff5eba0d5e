import Mathlib
import CanyonOS.Controller.IsoTime
import CanyonOS.Controller.Seeding

/-!
# The governance document, parsed and seeded

`parse` over the values Python holds, with what it returns written as a document again, and `seed`,
which merges that document into a stored one. A deploy parses what JSON holds; `parse_ofJson` is the
other model of it.
-/

namespace CanyonOS.GovernanceDocument

open CodePoints Governance

/-- A key of a mapping: a string or another value, which only has to be told apart. -/
inductive Key where
  | text (key : CodePoints)
  | other (object : ℕ)
deriving DecidableEq

inductive Value where
  | null
  | bool (value : Bool)
  | int (value : Int)
  | float (value : FloatValue)
  | str (value : CodePoints)
  | datetime (value : Datetime)
  /-- a date, bytes, or anything else -/
  | other
  | list (items : List Value)
  | dict (items : List (Key × Value))

def key (name : String) : Key :=
  .text (ofString name)

/-- The value of a key, the last one written. -/
def get (items : List (Key × Value)) (name : Key) : Option Value :=
  (items.reverse.find? fun entry => entry.1 = name).map Prod.snd

/-- `dict[key] = value` -/
def setItem (items : List (Key × Value)) (name : Key) (value : Value) : List (Key × Value) :=
  if name ∈ items.map Prod.fst then
    items.map fun entry => if entry.1 = name then (name, value) else entry
  else items ++ [(name, value)]

/-! ### Parsing -/

/-- A number, no truth value. -/
def number : Value → Option JsonValue
  | .int value => some (.int value)
  | .float value => some (.float value)
  | _ => none

def spendRule (rule : Value) (path : CodePoints) : Except PyError SpendRule :=
  match rule with
  | .dict rule =>
      match ((get rule (key "above_usd")).bind number).filter isPositive with
      | none => invalid path ".above_usd: must be a positive number"
      | some aboveUsd =>
          match get rule (key "action") with
          | some (.dict action) =>
              match get action (key "kind") with
              | some (.str kind) =>
                  if kind = ofString "deny" then .ok { aboveUsd, action := .deny }
                  else if kind = ofString "switch_model" then
                    match get action (key "model") with
                    | some (.str model) =>
                        if model = [] then
                          invalid path ".action.model: switch_model needs a model id"
                        else .ok { aboveUsd, action := .switchModel model }
                    | _ => invalid path ".action.model: switch_model needs a model id"
                  else invalid path ".action.kind: must be one of switch_model, deny"
              | _ => invalid path ".action.kind: must be one of switch_model, deny"
          | _ => invalid path ".action.kind: must be one of switch_model, deny"
  | _ => invalid path ": must be a mapping"

def spendRules (path : CodePoints) : ℕ → List Value → Except PyError (List SpendRule)
  | _, [] => .ok []
  | index, rule :: rules =>
      (spendRule rule (path ++ ofString s!".spend.rules[{index}]")).bind fun parsed =>
        (spendRules path (index + 1) rules).map (parsed :: ·)

/-- A non-empty string. -/
def agentName : Value → Option CodePoints
  | .str name => if name = [] then none else some name
  | _ => none

def requiresOf (rules : List (Key × Value)) (path : CodePoints) :
    Except PyError (Option (List CodePoints)) :=
  match get rules (key "requires") with
  | none => .ok none
  | some (.list names) =>
      match names.mapM agentName with
      | some names => .ok (some names)
      | none => invalid path ".requires: must be a list of agent names"
  | some _ => invalid path ".requires: must be a list of agent names"

section Reading

-- the standard library's parser, and how it prints a string or a key in a message
variable (fromisoformat : CodePoints → Option Datetime) (repr : CodePoints → CodePoints)
  (keyText : Key → CodePoints)

def since (value : Value) (path : CodePoints) : Except PyError CodePoints :=
  match value with
  | .datetime instant => utcText instant
  | .str text =>
      match fromisoformat (replaceZ text) with
      | some instant => utcText instant
      | none =>
          invalid (path ++ ofString ".spend.since: " ++ repr text) " is not an ISO-8601 date-time"
  | _ => invalid path ".spend.since: must be an ISO-8601 date-time"

def sinceOf (spend : List (Key × Value)) (path : CodePoints) :
    Except PyError (Option CodePoints) :=
  match get spend (key "since") with
  | none | some .null => .ok none
  | some value => (since fromisoformat repr value path).map some

def spendOf (rules : List (Key × Value)) (path : CodePoints) :
    Except PyError (Option (Option Spend)) :=
  match get rules (key "spend") with
  | none => .ok none
  | some .null => .ok (some none)
  | some (.dict spend) =>
      match get spend (key "rules") with
      | some (.list rules) =>
          (spendRules path 0 rules).bind fun rules =>
            (sinceOf fromisoformat repr spend path).map fun since => some (some { rules, since })
      | _ => invalid path ".spend.rules: must be a list"
  | some _ => invalid path ".spend: must be a mapping"

def agentRules (rules : Value) (path : CodePoints) : Except PyError AgentRules :=
  match rules with
  | .dict rules =>
      (requiresOf rules path).bind fun requires =>
        (spendOf fromisoformat repr rules path).map fun spend => { requires, spend }
  | _ => invalid path ": must be a mapping"

def parseAgents : List (Key × Value) → Except PyError (List (Key × AgentRules))
  | [] => .ok []
  | (name, rules) :: agents =>
      (agentRules fromisoformat repr rules
        (ofString "governance.yaml: agents." ++ keyText name)).bind fun parsed =>
          (parseAgents agents).map ((name, parsed) :: ·)

def parse (config : Value) : Except PyError (List (Key × AgentRules)) :=
  match config with
  | .dict config =>
      match get config (key "agents") with
      | none | some .null => .ok []
      | some (.dict agents) => parseAgents fromisoformat repr keyText agents
      | some _ => invalid [] "governance.yaml: agents: must be a mapping of agent names"
  | _ => invalid [] "governance.yaml: must be a mapping with an `agents:` mapping"

end Reading

/-! ### What `parse` returns, as Python holds it -/

def numberValue : JsonValue → Value
  | .int value => .int value
  | .float value => .float value
  | .null | .bool _ | .str _ | .list _ | .dict _ => .null

def actionValue : Action → Value
  | .deny => .dict [(key "kind", .str (ofString "deny"))]
  | .switchModel model =>
      .dict [(key "kind", .str (ofString "switch_model")), (key "model", .str model)]

def ruleValue (rule : SpendRule) : Value :=
  .dict [(key "above_usd", numberValue rule.aboveUsd), (key "action", actionValue rule.action)]

def spendItems (spend : Spend) : List (Key × Value) :=
  [(key "rules", .list (spend.rules.map ruleValue))] ++
    spend.since.toList.map fun since => (key "since", .str since)

def spendValue : Option Spend → Value
  | none => .null
  | some spend => .dict (spendItems spend)

def rulesItems (rules : AgentRules) : List (Key × Value) :=
  (rules.requires.toList.map fun names => (key "requires", .list (names.map .str))) ++
    rules.spend.toList.map fun spend => (key "spend", spendValue spend)

def agentsItems (agents : List (Key × AgentRules)) : List (Key × Value) :=
  agents.map fun (name, rules) => (name, .dict (rulesItems rules))

/-- A document with these agents and nothing else. -/
def documentOf (agents : List (Key × AgentRules)) : Value :=
  .dict [(key "agents", .dict (agentsItems agents))]

/-! ### Seeding -/

/-- A `datetime` in UTC. -/
abbrev Instant := { clock : ℕ // clock < timeLimit }

/-- The agents of a stored document, if there is one; one that is no mapping does not get here. -/
def storedAgents : Option Value → List (Key × Value)
  | some (.dict config) =>
      match get config (key "agents") with
      | some (.dict agents) => agents
      | _ => []
  | _ => []

/-- The spend of an agent that is new is counted from `now`, when it does not say from when. -/
def stampItems (rules : List (Key × Value)) (now : Instant) : List (Key × Value) :=
  match get rules (key "spend") with
  | some (.dict spend) =>
      if key "since" ∈ spend.map Prod.fst then rules
      else setItem rules (key "spend")
        (.dict (setItem spend (key "since") (.str (isoformat now.val))))
  | _ => rules

def seedAgents (now : Instant) (agents : List (Key × Value)) :
    List (Key × AgentRules) → List (Key × Value)
  | [] => agents
  | (name, rules) :: fromYaml =>
      if name ∈ agents.map Prod.fst then seedAgents now agents fromYaml
      else seedAgents now (agents ++ [(name, .dict (stampItems (rulesItems rules) now))]) fromYaml

def seed (existing : Option Value) (fromYaml : List (Key × AgentRules)) (now : Instant) : Value :=
  .dict [(key "agents", .dict (seedAgents now (storedAgents existing) fromYaml))]

/-! ### What `parse` guarantees -/

def ValidRule (rule : SpendRule) : Prop :=
  isPositive rule.aboveUsd = true ∧ ∀ model, rule.action = .switchModel model → model ≠ []

/-- A `since` is a time in the form that `isoformat` gives it. -/
structure ValidSpend (spend : Spend) : Prop where
  rules : ∀ rule ∈ spend.rules, ValidRule rule
  since : ∀ since ∈ spend.since, ∃ now : Instant, since = isoformat now.val

structure ValidRules (rules : AgentRules) : Prop where
  requires : ∀ names ∈ rules.requires, ∀ name ∈ names, name ≠ []
  spend : ∀ spend, rules.spend = some (some spend) → ValidSpend spend

/-- The parser reads back what `isoformat` writes, to the millisecond. -/
def ReadsBack (fromisoformat : CodePoints → Option Datetime) : Prop :=
  ∀ now : Instant, fromisoformat (replaceZ (isoformat now.val)) =
    some { clock := IsoTime.truncate now.val
           offset := some 0
           clock_lt := IsoTime.truncate_lt now.property }

theorem bind_eq_ok {α β : Type} {value : Except PyError α} {next : α → Except PyError β}
    {result : β} :
    value.bind next = .ok result ↔ ∃ found, value = .ok found ∧ next found = .ok result := by
  cases value <;> simp [Except.bind]

theorem map_eq_ok {α β : Type} {value : Except PyError α} {next : α → β} {result : β} :
    value.map next = .ok result ↔ ∃ found, value = .ok found ∧ next found = result := by
  cases value <;> simp [Except.map]

theorem isPositive_number {value : JsonValue} (hpositive : isPositive value = true) :
    number (numberValue value) = some value := by
  cases value with
  | int | float => rfl
  | null | bool | str | list | dict => cases hpositive

section Valid

variable {fromisoformat : CodePoints → Option Datetime} {repr : CodePoints → CodePoints}
  {keyText : Key → CodePoints} {path : CodePoints}

theorem valid_of_spendRule {value : Value} {rule : SpendRule}
    (hrule : spendRule value path = .ok rule) : ValidRule rule := by
  unfold spendRule at hrule
  split at hrule
  case h_1 items =>
    split at hrule
    case h_1 => cases hrule
    case h_2 aboveUsd habove =>
      have hpositive := (Option.filter_eq_some_iff.mp habove).2
      split at hrule
      case h_1 =>
        split at hrule
        case h_1 =>
          split_ifs at hrule
          · cases hrule
            exact ⟨hpositive, fun _ haction => (by cases haction)⟩
          · split at hrule
            case h_1 =>
              split_ifs at hrule with hmodel
              · cases hrule
              · cases hrule
                refine ⟨hpositive, fun model haction => ?_⟩
                cases haction
                exact hmodel
            case h_2 => cases hrule
          · cases hrule
        case h_2 => cases hrule
      case h_2 => cases hrule
  case h_2 => cases hrule

theorem valid_of_spendRules {values : List Value} {index : ℕ} {rules : List SpendRule}
    (hrules : spendRules path index values = .ok rules) : ∀ rule ∈ rules, ValidRule rule := by
  induction values generalizing index rules with
  | nil =>
      cases hrules
      intro rule hmem
      cases hmem
  | cons value values ih =>
      obtain ⟨parsed, hparsed, hrest⟩ := bind_eq_ok.mp hrules
      obtain ⟨others, hothers, rfl⟩ := map_eq_ok.mp hrest
      exact List.forall_mem_cons.mpr ⟨valid_of_spendRule hparsed, ih hothers⟩

theorem normal_of_utcText {instant : Datetime} {text : CodePoints}
    (htext : utcText instant = .ok text) : ∃ now : Instant, text = isoformat now.val := by
  unfold utcText at htext
  split_ifs at htext with hrange
  have hlt : instant.utc.toNat < timeLimit := (Int.toNat_lt hrange.1).mpr hrange.2
  exact ⟨⟨instant.utc.toNat, hlt⟩, (Except.ok.inj htext).symm⟩

theorem normal_of_sinceOf {spend : List (Key × Value)} {found : Option CodePoints}
    (hsince : sinceOf fromisoformat repr spend path = .ok found) :
    ∀ text ∈ found, ∃ now : Instant, text = isoformat now.val := by
  intro text hmem
  unfold sinceOf at hsince
  split at hsince
  case h_1 | h_2 =>
    cases hsince
    cases hmem
  case h_3 value _ _ =>
    obtain ⟨written, hwritten, rfl⟩ := map_eq_ok.mp hsince
    cases hmem
    unfold since at hwritten
    split at hwritten
    case h_1 => exact normal_of_utcText hwritten
    case h_2 =>
      split at hwritten
      · exact normal_of_utcText hwritten
      · cases hwritten
    case h_3 => cases hwritten

theorem mem_of_mapM_agentName {values : List Value} {names : List CodePoints}
    (hnames : values.mapM agentName = some names) : ∀ name ∈ names, name ≠ [] := by
  induction values generalizing names with
  | nil =>
      cases hnames
      intro name hmem
      cases hmem
  | cons value values ih =>
      simp only [List.mapM_cons, Option.bind_eq_bind, Option.pure_def, Option.bind_eq_some_iff]
        at hnames
      obtain ⟨first, hfirst, rest, hrest, heq⟩ := hnames
      cases heq
      refine List.forall_mem_cons.mpr ⟨?_, ih hrest⟩
      cases value with
      | str name =>
          simp only [agentName] at hfirst
          split_ifs at hfirst with hname
          cases hfirst
          exact hname
      | null | bool | int | float | datetime | other | list | dict => cases hfirst

theorem valid_of_agentRules {value : Value} {rules : AgentRules}
    (hrules : agentRules fromisoformat repr value path = .ok rules) : ValidRules rules := by
  unfold agentRules at hrules
  split at hrules
  case h_1 items =>
    obtain ⟨requires, hrequires, hrest⟩ := bind_eq_ok.mp hrules
    obtain ⟨spend, hspend, rfl⟩ := map_eq_ok.mp hrest
    refine ⟨fun names hmem => ?_, fun found hfound => ?_⟩
    · obtain rfl : requires = some names := hmem
      unfold requiresOf at hrequires
      split at hrequires
      case h_1 => cases hrequires
      case h_2 =>
        split at hrequires
        case h_1 hnames =>
          cases hrequires
          exact mem_of_mapM_agentName hnames
        case h_2 => cases hrequires
      case h_3 => cases hrequires
    · obtain rfl : spend = some (some found) := hfound
      unfold spendOf at hspend
      split at hspend
      case h_1 | h_2 => cases hspend
      case h_3 =>
        split at hspend
        case h_1 =>
          obtain ⟨parsed, hparsed, hrest⟩ := bind_eq_ok.mp hspend
          obtain ⟨since, hsince, heq⟩ := map_eq_ok.mp hrest
          cases heq
          exact ⟨valid_of_spendRules hparsed, normal_of_sinceOf hsince⟩
        case h_2 => cases hspend
      case h_4 => cases hspend
  case h_2 => cases hrules

theorem valid_of_parseAgents {values : List (Key × Value)} {agents : List (Key × AgentRules)}
    (hagents : parseAgents fromisoformat repr keyText values = .ok agents) :
    ∀ entry ∈ agents, ValidRules entry.2 := by
  induction values generalizing agents with
  | nil =>
      cases hagents
      intro entry hmem
      cases hmem
  | cons value values ih =>
      obtain ⟨parsed, hparsed, hrest⟩ := bind_eq_ok.mp hagents
      obtain ⟨others, hothers, rfl⟩ := map_eq_ok.mp hrest
      exact List.forall_mem_cons.mpr ⟨valid_of_agentRules hparsed, ih hothers⟩

/-- The agents `parse` returns are well formed. -/
theorem valid_of_parse {config : Value} {agents : List (Key × AgentRules)}
    (hagents : parse fromisoformat repr keyText config = .ok agents) :
    ∀ entry ∈ agents, ValidRules entry.2 := by
  unfold parse at hagents
  split at hagents
  case h_1 =>
    split at hagents
    case h_1 | h_2 =>
      cases hagents
      intro entry hmem
      cases hmem
    case h_3 => exact valid_of_parseAgents hagents
    case h_4 => cases hagents
  case h_2 => cases hagents

end Valid

/-! ### Parsing it again -/

@[simp]
theorem key_inj {first second : String} : key first = key second ↔ first = second := by
  unfold key
  rw [Key.text.injEq, ofString_inj]

theorem get_concat (items : List (Key × Value)) (name other : Key) (value : Value) :
    get (items ++ [(name, value)]) other =
      if name = other then some value else get items other := by
  unfold get
  rw [List.reverse_append, List.reverse_singleton, List.singleton_append, List.find?_cons]
  by_cases heq : name = other <;> simp [heq]

theorem get_requires (rules : AgentRules) :
    get (rulesItems rules) (key "requires") =
      rules.requires.map fun names => .list (names.map .str) := by
  obtain ⟨requires, spend⟩ := rules
  cases requires <;> cases spend <;> simp [rulesItems, get]

theorem get_spend (rules : AgentRules) :
    get (rulesItems rules) (key "spend") = rules.spend.map spendValue := by
  obtain ⟨requires, spend⟩ := rules
  cases requires <;> cases spend <;> simp [rulesItems, get]

theorem get_rules (spend : Spend) :
    get (spendItems spend) (key "rules") = some (.list (spend.rules.map ruleValue)) := by
  obtain ⟨rules, since⟩ := spend
  cases since <;> simp [spendItems, get]

theorem get_since (spend : Spend) :
    get (spendItems spend) (key "since") = spend.since.map .str := by
  obtain ⟨rules, since⟩ := spend
  cases since <;> simp [spendItems, get]

theorem mapM_agentName {names : List CodePoints} (hnames : ∀ name ∈ names, name ≠ []) :
    (names.map Value.str).mapM agentName = some names := by
  induction names with
  | nil => rfl
  | cons name names ih =>
      obtain ⟨hname, hrest⟩ := List.forall_mem_cons.mp hnames
      rw [List.map_cons, List.mapM_cons, agentName, if_neg hname, ih hrest]
      rfl

theorem ofString_ne {first second : String} (hne : first ≠ second) :
    ofString first ≠ ofString second :=
  fun heq => hne (ofString_inj.mp heq)

theorem spendRule_ruleValue {rule : SpendRule} (hvalid : ValidRule rule) (path : CodePoints) :
    spendRule (ruleValue rule) path = .ok rule := by
  obtain ⟨aboveUsd, action⟩ := rule
  obtain ⟨hpositive, hmodel⟩ := hvalid
  have habove : (Option.bind (get [(key "above_usd", numberValue aboveUsd),
      (key "action", actionValue action)] (key "above_usd")) number).filter isPositive =
        some aboveUsd := by
    have hnumber := isPositive_number hpositive
    simp [get, hnumber, hpositive]
  have haction : get [(key "above_usd", numberValue aboveUsd), (key "action", actionValue action)]
      (key "action") = some (actionValue action) := by
    simp [get]
  unfold ruleValue
  simp only [spendRule, habove, haction]
  cases action with
  | deny => simp [actionValue, get]
  | switchModel model =>
      have hne := ofString_ne (show "switch_model" ≠ "deny" by decide)
      simp [actionValue, get, hne, hmodel model rfl]

theorem spendRules_map {rules : List SpendRule} (hvalid : ∀ rule ∈ rules, ValidRule rule)
    (path : CodePoints) (index : ℕ) :
    spendRules path index (rules.map ruleValue) = .ok rules := by
  induction rules generalizing index with
  | nil => rfl
  | cons rule rules ih =>
      obtain ⟨hrule, hrest⟩ := List.forall_mem_cons.mp hvalid
      rw [List.map_cons, spendRules, spendRule_ruleValue hrule, ih hrest]
      rfl

section Again

variable {fromisoformat : CodePoints → Option Datetime} {repr : CodePoints → CodePoints}
  {keyText : Key → CodePoints} {path : CodePoints}

theorem utcText_truncate (now : Instant) :
    utcText { clock := IsoTime.truncate now.val
              offset := some 0
              clock_lt := IsoTime.truncate_lt now.property } = .ok (isoformat now.val) := by
  have hlt := IsoTime.truncate_lt now.property
  generalize hinstant : ({ clock := IsoTime.truncate now.val, offset := some 0, clock_lt := hlt } :
    Datetime) = instant
  have hutc : instant.utc = (IsoTime.truncate now.val : ℕ) := by
    rw [← hinstant, Datetime.utc, Option.getD_some, sub_zero]
  have hrange : instant.InRange := by
    rw [Datetime.InRange, hutc]
    exact ⟨Int.natCast_nonneg _, Int.ofNat_lt.mpr hlt⟩
  rw [utcText, if_pos hrange, hutc, Int.toNat_natCast, IsoTime.isoformat_truncate]

theorem since_isoformat (hreads : ReadsBack fromisoformat) (now : Instant) :
    since fromisoformat repr (.str (isoformat now.val)) path = .ok (isoformat now.val) := by
  rw [since, hreads now]
  exact utcText_truncate now

theorem sinceOf_spendItems (hreads : ReadsBack fromisoformat) {spend : Spend}
    (hvalid : ValidSpend spend) :
    sinceOf fromisoformat repr (spendItems spend) path = .ok spend.since := by
  rw [sinceOf, get_since]
  cases hsince : spend.since with
  | none => rfl
  | some text =>
      obtain ⟨now, hnow⟩ := hvalid.since text hsince
      simp only [Option.map_some, hnow, since_isoformat hreads, Except.map]

theorem spendOf_rulesItems (hreads : ReadsBack fromisoformat) {rules : AgentRules}
    (hvalid : ValidRules rules) :
    spendOf fromisoformat repr (rulesItems rules) path = .ok rules.spend := by
  rw [spendOf, get_spend]
  cases hspend : rules.spend with
  | none => rfl
  | some value =>
      cases value with
      | none => rfl
      | some spend =>
          have hspendValid := hvalid.spend spend hspend
          simp only [Option.map_some, spendValue, get_rules,
            spendRules_map hspendValid.rules, sinceOf_spendItems hreads hspendValid, Except.bind,
            Except.map]

theorem requiresOf_rulesItems {rules : AgentRules} (hvalid : ValidRules rules) :
    requiresOf (rulesItems rules) path = .ok rules.requires := by
  rw [requiresOf, get_requires]
  cases hrequires : rules.requires with
  | none => rfl
  | some names =>
      simp only [Option.map_some, mapM_agentName (hvalid.requires names hrequires)]

theorem agentRules_rulesItems (hreads : ReadsBack fromisoformat) {rules : AgentRules}
    (hvalid : ValidRules rules) :
    agentRules fromisoformat repr (.dict (rulesItems rules)) path = .ok rules := by
  rw [agentRules, requiresOf_rulesItems hvalid, spendOf_rulesItems hreads hvalid]
  rfl

theorem parseAgents_agentsItems (hreads : ReadsBack fromisoformat)
    {agents : List (Key × AgentRules)} (hvalid : ∀ entry ∈ agents, ValidRules entry.2) :
    parseAgents fromisoformat repr keyText (agentsItems agents) = .ok agents := by
  induction agents with
  | nil => rfl
  | cons agent agents ih =>
      obtain ⟨hagent, hrest⟩ := List.forall_mem_cons.mp hvalid
      change parseAgents fromisoformat repr keyText
        ((agent.1, .dict (rulesItems agent.2)) :: agentsItems agents) = _
      rw [parseAgents, agentRules_rulesItems hreads hagent, ih hrest]
      rfl

/-- Well-formed rules, written as a document, parse to themselves. -/
theorem parse_documentOf (hreads : ReadsBack fromisoformat) {agents : List (Key × AgentRules)}
    (hvalid : ∀ entry ∈ agents, ValidRules entry.2) :
    parse fromisoformat repr keyText (documentOf agents) = .ok agents := by
  have hget : get [(key "agents", Value.dict (agentsItems agents))] (key "agents") =
      some (.dict (agentsItems agents)) := by
    simp [get]
  unfold documentOf
  simp only [parse, hget]
  exact parseAgents_agentsItems hreads hvalid

/-! ### Seeding -/

@[simp]
theorem storedAgents_seed (existing : Option Value) (fromYaml : List (Key × AgentRules))
    (now : Instant) :
    storedAgents (some (seed existing fromYaml now)) =
      seedAgents now (storedAgents existing) fromYaml := by
  simp [storedAgents, seed, get]

/-- The stamp of an agent's rules is a `since`, where there is a spend without one. -/
theorem stampItems_rulesItems (rules : AgentRules) (now : Instant) :
    stampItems (rulesItems rules) now =
      rulesItems (Seeding.stamp rules (isoformat now.val)) := by
  obtain ⟨requires, spend⟩ := rules
  cases spend with
  | none =>
      rw [stampItems, get_spend]
      rfl
  | some spend =>
      cases spend with
      | none =>
          rw [stampItems, get_spend]
          rfl
      | some spend =>
          obtain ⟨rules, since⟩ := spend
          cases since with
          | some since => simp [stampItems, get_spend, spendValue, spendItems, Seeding.stamp]
          | none =>
              cases requires <;>
                simp [stampItems, rulesItems, get, setItem, spendValue, spendItems, Seeding.stamp]

theorem valid_stamp {rules : AgentRules} (hvalid : ValidRules rules) {text : CodePoints}
    (htext : ∃ now : Instant, text = isoformat now.val) :
    ValidRules (Seeding.stamp rules text) := by
  obtain ⟨requires, spend⟩ := rules
  cases spend with
  | none => exact hvalid
  | some spend =>
      cases spend with
      | none => exact hvalid
      | some spend =>
          have hspend := hvalid.spend spend rfl
          refine ⟨hvalid.requires, fun found hfound => ?_⟩
          obtain rfl := Option.some.inj (Option.some.inj hfound)
          refine ⟨hspend.rules, fun since hsince => ?_⟩
          obtain ⟨rules, from?⟩ := spend
          cases from? with
          | none =>
              obtain rfl := Option.some.inj hsince
              exact htext
          | some written => exact hspend.since since hsince

/-- The stamp is for a spend without a `since`, and for nothing else. -/
theorem stamp_eq_self_iff (rules : AgentRules) (now : CodePoints) :
    Seeding.stamp rules now = rules ↔
      ¬ ∃ spend, rules.spend = some (some spend) ∧ spend.since = none := by
  obtain ⟨requires, spend⟩ := rules
  cases spend with
  | none => simp [Seeding.stamp]
  | some spend =>
      cases spend with
      | none => simp [Seeding.stamp]
      | some spend =>
          obtain ⟨rules, since⟩ := spend
          cases since <;> simp [Seeding.stamp]

theorem mem_keys_of_mem {agents : List (Key × Value)} {fromYaml : List (Key × AgentRules)}
    {now : Instant} {name : Key} (hmem : name ∈ agents.map Prod.fst) :
    name ∈ (seedAgents now agents fromYaml).map Prod.fst := by
  induction fromYaml generalizing agents with
  | nil => exact hmem
  | cons entry fromYaml ih =>
      rw [seedAgents]
      split_ifs
      · exact ih hmem
      · apply ih
        rw [List.map_append]
        exact List.mem_append_left _ hmem

theorem mem_keys_of_mem_yaml {agents : List (Key × Value)} {fromYaml : List (Key × AgentRules)}
    {now : Instant} {entry : Key × AgentRules} (hmem : entry ∈ fromYaml) :
    entry.1 ∈ (seedAgents now agents fromYaml).map Prod.fst := by
  induction fromYaml generalizing agents with
  | nil => cases hmem
  | cons first fromYaml ih =>
      rw [seedAgents]
      rcases List.mem_cons.mp hmem with rfl | hrest
      · split_ifs with hname
        · exact mem_keys_of_mem hname
        · apply mem_keys_of_mem
          rw [List.map_append]
          exact List.mem_append_right _ (List.mem_singleton_self _)
      · split_ifs <;> exact ih hrest

/-- Agents that are all there already are left alone. -/
theorem seedAgents_of_mem {agents : List (Key × Value)} {fromYaml : List (Key × AgentRules)}
    {now : Instant} (hall : ∀ entry ∈ fromYaml, entry.1 ∈ agents.map Prod.fst) :
    seedAgents now agents fromYaml = agents := by
  induction fromYaml with
  | nil => rfl
  | cons entry fromYaml ih =>
      obtain ⟨hentry, hrest⟩ := List.forall_mem_cons.mp hall
      rw [seedAgents, if_pos hentry, ih hrest]

theorem get_eq_none {items : List (Key × Value)} {name : Key}
    (hname : name ∉ items.map Prod.fst) : get items name = none := by
  unfold get
  rw [Option.map_eq_none_iff, List.find?_eq_none]
  intro entry hmem hkey
  refine hname (List.mem_map.mpr ⟨entry, List.mem_reverse.mp hmem, ?_⟩)
  simpa using hkey

theorem get_seedAgents_of_mem {agents : List (Key × Value)}
    {fromYaml : List (Key × AgentRules)} {now : Instant} {name : Key}
    (hname : name ∈ agents.map Prod.fst) :
    get (seedAgents now agents fromYaml) name = get agents name := by
  induction fromYaml generalizing agents with
  | nil => rfl
  | cons entry fromYaml ih =>
      rw [seedAgents]
      split_ifs with hentry
      · exact ih hname
      · have hne : entry.1 ≠ name := fun heq => hentry (heq ▸ hname)
        rw [ih (by rw [List.map_append]; exact List.mem_append_left _ hname), get_concat,
          if_neg hne]

theorem get_seedAgents_of_notMem {agents : List (Key × Value)}
    {fromYaml : List (Key × AgentRules)} {now : Instant} {name : Key}
    (hname : name ∉ agents.map Prod.fst) :
    get (seedAgents now agents fromYaml) name =
      (fromYaml.lookup name).map fun rules =>
        .dict (rulesItems (Seeding.stamp rules (isoformat now.val))) := by
  induction fromYaml generalizing agents with
  | nil => exact get_eq_none hname
  | cons entry fromYaml ih =>
      rw [seedAgents, List.lookup_cons]
      by_cases heq : name = entry.1
      · subst heq
        rw [if_neg hname, beq_self_eq_true, get_seedAgents_of_mem, get_concat, if_pos rfl,
          stampItems_rulesItems]
        · rfl
        · rw [List.map_append]
          exact List.mem_append_right _ (List.mem_singleton_self _)
      · rw [beq_eq_false_iff_ne.mpr heq]
        split_ifs with hentry
        · exact ih hname
        · refine ih ?_
          rw [List.map_append, List.mem_append, not_or]
          exact ⟨hname, fun hmem => heq (List.mem_singleton.mp hmem)⟩

theorem mem_seedAgents {agents : List (Key × Value)} {fromYaml : List (Key × AgentRules)}
    {now : Instant} {entry : Key × Value} (hmem : entry ∈ seedAgents now agents fromYaml) :
    entry ∈ agents ∨ ∃ added ∈ fromYaml,
      entry = (added.1, .dict (rulesItems (Seeding.stamp added.2 (isoformat now.val)))) := by
  induction fromYaml generalizing agents with
  | nil => exact .inl hmem
  | cons first fromYaml ih =>
      rw [seedAgents] at hmem
      split_ifs at hmem
      · exact (ih hmem).imp_right fun ⟨added, hadded, heq⟩ =>
          ⟨added, List.mem_cons_of_mem _ hadded, heq⟩
      · rcases ih hmem with hmem | ⟨added, hadded, heq⟩
        · rcases List.mem_append.mp hmem with hold | hnew
          · exact .inl hold
          · refine .inr ⟨first, List.mem_cons_self, ?_⟩
            rw [List.mem_singleton.mp hnew, stampItems_rulesItems]
        · exact .inr ⟨added, List.mem_cons_of_mem _ hadded, heq⟩

/-- The agents parse when each one does. -/
theorem parseAgents_isOk_iff (values : List (Key × Value)) :
    (∃ parsed, parseAgents fromisoformat repr keyText values = .ok parsed) ↔
      ∀ entry ∈ values, ∃ rules, agentRules fromisoformat repr entry.2
        (ofString "governance.yaml: agents." ++ keyText entry.1) = .ok rules := by
  induction values with
  | nil => exact iff_of_true ⟨[], rfl⟩ fun _ hmem => (by cases hmem)
  | cons value values ih =>
      rw [List.forall_mem_cons, ← ih]
      constructor
      · rintro ⟨parsed, hparsed⟩
        obtain ⟨rules, hrules, hrest⟩ := bind_eq_ok.mp hparsed
        obtain ⟨others, hothers, -⟩ := map_eq_ok.mp hrest
        exact ⟨⟨rules, hrules⟩, ⟨others, hothers⟩⟩
      · rintro ⟨⟨rules, hrules⟩, ⟨others, hothers⟩⟩
        refine ⟨(value.1, rules) :: others, ?_⟩
        rw [parseAgents, hrules, hothers]
        rfl

theorem parse_seed (hreads : ReadsBack fromisoformat) {existing : Option Value}
    {agents : List (Key × AgentRules)} (hvalid : ∀ entry ∈ agents, ValidRules entry.2)
    (hexisting : ∀ config ∈ existing, ∃ parsed,
      parse fromisoformat repr keyText config = .ok parsed)
    (now : Instant) :
    ∃ parsed, parse fromisoformat repr keyText (seed existing agents now) = .ok parsed := by
  have hstored : ∀ entry ∈ storedAgents existing, ∃ rules, agentRules fromisoformat repr entry.2
      (ofString "governance.yaml: agents." ++ keyText entry.1) = .ok rules := by
    unfold storedAgents
    split
    case h_1 config =>
      split
      case h_1 stored hstored =>
        obtain ⟨parsed, hparsed⟩ := hexisting _ rfl
        rw [← parseAgents_isOk_iff]
        refine ⟨parsed, ?_⟩
        simpa only [parse, hstored] using hparsed
      case h_2 =>
        intro entry hmem
        cases hmem
    case h_2 =>
      intro entry hmem
      cases hmem
  have hget : get [(key "agents", Value.dict (seedAgents now (storedAgents existing) agents))]
      (key "agents") = some (.dict (seedAgents now (storedAgents existing) agents)) := by
    simp [get]
  unfold seed
  simp only [parse, hget]
  rw [parseAgents_isOk_iff]
  intro entry hmem
  rcases mem_seedAgents hmem with hold | ⟨added, hadded, rfl⟩
  · exact hstored entry hold
  · exact ⟨_, agentRules_rulesItems hreads
      (valid_stamp (hvalid added hadded) ⟨now, rfl⟩)⟩

end Again

section Claims

variable (fromisoformat : CodePoints → Option Datetime) (repr : CodePoints → CodePoints)
  (keyText : Key → CodePoints)

/-- What `parse` returned parses to itself, every `since` a time as `isoformat` writes it. -/
structure Reparses (agents : List (Key × AgentRules)) : Prop where
  parsed : parse fromisoformat repr keyText (documentOf agents) = .ok agents
  normal : ∀ entry ∈ agents, ∀ spend, entry.2.spend = some (some spend) →
    ∀ since ∈ spend.since, ∃ now : Instant, since = isoformat now.val

structure Seeds (existing : Option Value) (agents : List (Key × AgentRules)) (now : Instant) :
    Prop where
  kept : ∀ name ∈ (storedAgents existing).map Prod.fst,
    get (storedAgents (some (seed existing agents now))) name = get (storedAgents existing) name
  added : ∀ name ∉ (storedAgents existing).map Prod.fst,
    get (storedAgents (some (seed existing agents now))) name =
      (agents.lookup name).map fun rules =>
        .dict (rulesItems (Seeding.stamp rules (isoformat now.val)))
  stamped : ∀ entry ∈ agents, Seeding.stamp entry.2 (isoformat now.val) = entry.2 ↔
    ¬ ∃ spend, entry.2.spend = some (some spend) ∧ spend.since = none
  parses : (∀ config ∈ existing, ∃ parsed,
      parse fromisoformat repr keyText config = .ok parsed) →
    ∃ parsed, parse fromisoformat repr keyText (seed existing agents now) = .ok parsed
  again : ∀ later, seed (some (seed existing agents now)) agents later = seed existing agents now

end Claims

/-- Parsing and seeding the rules of a document are stable, with any parser of times that reads
back what is written. -/
theorem parse_and_seed_stable {fromisoformat : CodePoints → Option Datetime}
    {repr : CodePoints → CodePoints} {keyText : Key → CodePoints}
    (hreads : ReadsBack fromisoformat) {document : Value} {agents : List (Key × AgentRules)}
    (hparse : parse fromisoformat repr keyText document = .ok agents) :
    Reparses fromisoformat repr keyText agents ∧
      ∀ existing now, Seeds fromisoformat repr keyText existing agents now := by
  have hvalid := valid_of_parse hparse
  refine ⟨⟨parse_documentOf hreads hvalid, ?_⟩, fun existing now => ?_⟩
  · intro entry hmem spend hspend
    exact ((hvalid entry hmem).spend spend hspend).since
  constructor
  · intro name hname
    rw [storedAgents_seed, get_seedAgents_of_mem hname]
  · intro name hname
    rw [storedAgents_seed, get_seedAgents_of_notMem hname]
  · exact fun entry _ => stamp_eq_self_iff entry.2 _
  · exact fun hexisting => parse_seed hreads hvalid hexisting now
  · intro later
    have hall : ∀ entry ∈ agents,
        entry.1 ∈ (seedAgents now (storedAgents existing) agents).map Prod.fst :=
      fun entry hmem => mem_keys_of_mem_yaml hmem
    rw [seed, storedAgents_seed, seedAgents_of_mem hall, seed]

/-! ### What JSON holds -/

mutual

def ofJson : JsonValue → Value
  | .null => .null
  | .bool value => .bool value
  | .int value => .int value
  | .float value => .float value
  | .str value => .str value
  | .list items => .list (ofJsonItems items)
  | .dict items => .dict (ofJsonEntries items)

def ofJsonItems : List JsonValue → List Value
  | [] => []
  | item :: items => ofJson item :: ofJsonItems items

def ofJsonEntries : List (CodePoints × JsonValue) → List (Key × Value)
  | [] => []
  | (name, value) :: entries => (.text name, ofJson value) :: ofJsonEntries entries

end

section OfJson

variable {fromisoformat : CodePoints → Option Datetime} {repr : CodePoints → CodePoints}
  {keyText : Key → CodePoints} {path : CodePoints}

theorem ofJsonEntries_eq (entries : List (CodePoints × JsonValue)) :
    ofJsonEntries entries = entries.map fun entry => (.text entry.1, ofJson entry.2) := by
  induction entries with
  | nil => rfl
  | cons entry entries ih => rw [ofJsonEntries, ih, List.map_cons]

theorem get_ofJsonEntries (entries : List (CodePoints × JsonValue)) (name : String) :
    get (ofJsonEntries entries) (key name) =
      (JsonValue.get entries (ofString name)).map ofJson := by
  rw [ofJsonEntries_eq, get, JsonValue.get, ← List.map_reverse, List.find?_map, Option.map_map,
    Option.map_map]
  have hsame : ((fun entry : Key × Value => decide (entry.1 = key name)) ∘
      fun entry : CodePoints × JsonValue => (Key.text entry.1, ofJson entry.2)) =
        fun entry => decide (entry.1 = ofString name) := by
    funext entry
    simp [key]
  rw [hsame]
  rfl

theorem number_ofJson (value : JsonValue) :
    (number (ofJson value)).filter isPositive = (some value).filter isPositive := by
  cases value <;> rfl

theorem spendRule_ofJson (rule : JsonValue) (path : CodePoints) :
    spendRule (ofJson rule) path = Governance.spendRule rule path := by
  cases rule with
  | dict rule =>
      have habove : ((get (ofJsonEntries rule) (key "above_usd")).bind number).filter isPositive =
          (JsonValue.get rule (ofString "above_usd")).filter isPositive := by
        rw [get_ofJsonEntries]
        cases JsonValue.get rule (ofString "above_usd") with
        | none => rfl
        | some value => exact number_ofJson value
      simp only [ofJson, spendRule, Governance.spendRule]
      rw [habove, get_ofJsonEntries]
      cases (JsonValue.get rule (ofString "above_usd")).filter isPositive with
      | none => rfl
      | some aboveUsd =>
          cases JsonValue.get rule (ofString "action") with
          | none => rfl
          | some action =>
              cases action with
              | dict action =>
                  simp only [Option.map_some, ofJson, get_ofJsonEntries]
                  cases JsonValue.get action (ofString "kind") with
                  | none => rfl
                  | some kind =>
                      cases kind with
                      | str kind =>
                          simp only [Option.map_some, ofJson]
                          cases JsonValue.get action (ofString "model") with
                          | none => rfl
                          | some model => cases model <;> rfl
                      | null | bool | int | float | list | dict => rfl
              | null | bool | int | float | str | list => rfl
  | null | bool | int | float | str | list => rfl

theorem spendRules_ofJson (rules : List JsonValue) (path : CodePoints) (index : ℕ) :
    spendRules path index (ofJsonItems rules) = Governance.spendRules path index rules := by
  induction rules generalizing index with
  | nil => rfl
  | cons rule rules ih =>
      rw [ofJsonItems, spendRules, Governance.spendRules, spendRule_ofJson, ih]
      rfl

theorem mapM_ofJson (names : List JsonValue) :
    (ofJsonItems names).mapM agentName = names.mapM Governance.agentName := by
  induction names with
  | nil => rfl
  | cons name names ih =>
      have hname : agentName (ofJson name) = Governance.agentName name := by
        cases name <;> rfl
      rw [ofJsonItems, List.mapM_cons, List.mapM_cons, ih, hname]

theorem requiresOf_ofJson (rules : List (CodePoints × JsonValue)) (path : CodePoints) :
    requiresOf (ofJsonEntries rules) path = Governance.requiresOf rules path := by
  unfold requiresOf Governance.requiresOf
  rw [get_ofJsonEntries]
  cases JsonValue.get rules (ofString "requires") with
  | none => rfl
  | some names =>
      cases names with
      | list names =>
          cases hnames : names.mapM Governance.agentName <;>
            simp only [Option.map_some, ofJson, mapM_ofJson, hnames]
      | null | bool | int | float | str | dict => rfl

theorem sinceOf_ofJson (spend : List (CodePoints × JsonValue)) (path : CodePoints) :
    sinceOf fromisoformat repr (ofJsonEntries spend) path =
      Governance.sinceOf fromisoformat repr spend path := by
  unfold sinceOf Governance.sinceOf
  rw [get_ofJsonEntries]
  cases JsonValue.get spend (ofString "since") with
  | none => rfl
  | some value => cases value <;> rfl

theorem spendOf_ofJson (rules : List (CodePoints × JsonValue)) (path : CodePoints) :
    spendOf fromisoformat repr (ofJsonEntries rules) path =
      Governance.spendOf fromisoformat repr rules path := by
  unfold spendOf Governance.spendOf
  rw [get_ofJsonEntries]
  cases JsonValue.get rules (ofString "spend") with
  | none => rfl
  | some spend =>
      cases spend with
      | dict spend =>
          simp only [Option.map_some, ofJson]
          rw [get_ofJsonEntries]
          cases JsonValue.get spend (ofString "rules") with
          | none => rfl
          | some rules =>
              cases rules with
              | list rules =>
                  simp only [Option.map_some, ofJson, spendRules_ofJson, sinceOf_ofJson]
                  rfl
              | null | bool | int | float | str | dict => rfl
      | null | bool | int | float | str | list => rfl

theorem agentRules_ofJson (rules : JsonValue) (path : CodePoints) :
    agentRules fromisoformat repr (ofJson rules) path =
      Governance.agentRules fromisoformat repr rules path := by
  cases rules with
  | dict rules =>
      simp only [ofJson, agentRules, Governance.agentRules, requiresOf_ofJson, spendOf_ofJson]
      rfl
  | null | bool | int | float | str | list => rfl

theorem parseAgents_ofJson (hkeys : ∀ name, keyText (.text name) = name)
    (agents : List (CodePoints × JsonValue)) :
    parseAgents fromisoformat repr keyText (ofJsonEntries agents) =
      (Governance.parseAgents fromisoformat repr agents).map
        (List.map fun entry => (.text entry.1, entry.2)) := by
  induction agents with
  | nil => rfl
  | cons agent agents ih =>
      rw [ofJsonEntries, parseAgents, Governance.parseAgents, hkeys, agentRules_ofJson, ih]
      cases Governance.agentRules fromisoformat repr agent.2
          (ofString "governance.yaml: agents." ++ agent.1) with
      | error => rfl
      | ok rules => cases Governance.parseAgents fromisoformat repr agents <;> rfl

/-- On what JSON holds the two models of `parse` are one. -/
theorem parse_ofJson (hkeys : ∀ name, keyText (.text name) = name) (config : JsonValue) :
    parse fromisoformat repr keyText (ofJson config) =
      (Governance.parse fromisoformat repr config).map
        (List.map fun entry => (.text entry.1, entry.2)) := by
  cases config with
  | dict config =>
      simp only [ofJson, parse, Governance.parse]
      rw [get_ofJsonEntries]
      cases JsonValue.get config (ofString "agents") with
      | none => rfl
      | some agents =>
          cases agents with
          | dict agents => exact parseAgents_ofJson hkeys agents
          | null | bool | int | float | str | list => rfl
  | null | bool | int | float | str | list => rfl

end OfJson

/-! ### A document -/

theorem readsBack_fromisoformat : ReadsBack IsoTime.fromisoformat :=
  fun now => IsoTime.fromisoformat_isoformat now.property

def twoHoursAhead : Datetime where
  clock := 63928137600000123
  offset := some 7200000000
  clock_lt := by decide

/-- One agent's spend has a `since` in another time zone, one agent's has none. -/
def twoAgents : Value :=
  .dict [(key "agents", .dict [
    (key "search", .dict [(key "spend", .dict [
      (key "rules", .list [.dict [(key "above_usd", .int 5),
        (key "action", .dict [(key "kind", .str (ofString "deny"))])]]),
      (key "since", .datetime twoHoursAhead)])]),
    (key "chat", .dict [(key "requires", .list [.str (ofString "search")]),
      (key "spend", .dict [(key "rules", .list [])])])])]

def keyText : Key → CodePoints
  | .text key => key
  | .other _ => []

theorem parse_and_seed_stable_twoAgents :
    ∃ agents, parse IsoTime.fromisoformat id keyText twoAgents = .ok agents ∧
      Reparses IsoTime.fromisoformat id keyText agents ∧
      ∀ existing now, Seeds IsoTime.fromisoformat id keyText existing agents now := by
  have hok : (parse IsoTime.fromisoformat id keyText twoAgents).isOk = true := by
    decide +kernel
  cases hparse : parse IsoTime.fromisoformat id keyText twoAgents with
  | error error =>
      rw [hparse] at hok
      cases hok
  | ok agents => exact ⟨agents, rfl, parse_and_seed_stable readsBack_fromisoformat hparse⟩

end CanyonOS.GovernanceDocument
