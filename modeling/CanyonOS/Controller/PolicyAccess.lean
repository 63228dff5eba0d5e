import Mathlib
import CanyonOS.Controller.Reload
import CanyonOS.Lib.Numbers
import CanyonOS.Lib.StableSort

/-!
# Access by policy

The rules of policy.yaml are sorted by the number of keys in their `match`, written to Redis as
JSON, and read by the controller that decides a call: the first rule that the context of the request
meets says which agents may be called. The file is not checked against a schema.
-/

namespace CanyonOS.PolicyAccess

open CodePoints JsonValue Reload

/-! ### The rules -/

/-- What is read of a rule: two keys, where it has them. -/
structure Rule (Value : Type) where
  matched : Option Value
  access : Option Value

def ruleOf : Yaml → Rule Yaml
  | .dict entries => { matched := Yaml.get entries "match", access := Yaml.get entries "access" }
  | _ => { matched := none, access := none }

def lengthOf (rule : Rule Yaml) : Except ReloadError ℕ :=
  (rule.matched.getD (.dict [])).length

/-- The number of keys, of a rule for which there is one. -/
def keyCount (rule : Rule Yaml) : ℕ :=
  match lengthOf rule with
  | .ok length => length
  | .error _ => 0

/-- Rules with more keys come first. -/
def MoreKeys (first second : Rule Yaml) : Prop :=
  keyCount second ≤ keyCount first

instance decidableMoreKeys : DecidableRel MoreKeys :=
  fun _ _ => inferInstanceAs (Decidable (_ ≤ _))

instance total_moreKeys : Std.Total MoreKeys where
  total first second := Nat.le_total (keyCount second) (keyCount first)

instance trans_moreKeys : IsTrans (Rule Yaml) MoreKeys where
  trans _ _ _ hfirst hsecond := Nat.le_trans hsecond hfirst

/-- The rules of the document, in its order. -/
def documentRules (document : Yaml) : Option (List (Rule Yaml)) :=
  (rulesOf document).map fun rules => rules.map ruleOf

/-- `_load_policy_rules` of a file with this document. -/
def loadPolicyRules (path : CodePoints) (document : Yaml) :
    Except ReloadError (List (Rule Yaml)) :=
  match documentRules document with
  | none => .error (.runtimeError (path ++
      ofString " must be a mapping with a \x60rules:\x60 list of mappings."))
  | some rules => (rules.mapM lengthOf).map fun _ => rules.insertionSort MoreKeys

section Publish

variable (floatText : FloatValue → CodePoints)

def dumpsField : Option Yaml → Except ReloadError (Option JsonValue)
  | none => .ok none
  | some value => (value.dumps floatText Yaml.strict).map some

/-- A rule as `json.dumps` writes it. -/
def publish (rule : Rule Yaml) : Except ReloadError (Rule JsonValue) := do
  let matched ← dumpsField floatText rule.matched
  let access ← dumpsField floatText rule.access
  .ok { matched, access }

end Publish

/-! ### The decision -/

inductive DecisionError where
  | attributeError
  | typeError

abbrev Context := List (CodePoints × JsonValue)

/-- Whether the context meets a rule's `match`: a missing key is `None`, and `==` compares. -/
def ruleMet (rule : Rule JsonValue) (context : Context) : Except DecisionError Bool :=
  match rule.matched.getD (.dict []) with
  | .dict entries => .ok (entries.all fun entry =>
      equal true ((get context entry.1).getD .null) ((get entries entry.1).getD .null))
  | _ => .error .attributeError

/-- `access == "all" or agent in access` -/
def accessAllows (rule : Rule JsonValue) (agent : CodePoints) : Except DecisionError Bool :=
  match rule.access.getD (.list []) with
  | .str text => .ok (text = ofString "all" ∨ agent <:+: text)
  | .list items => .ok (items.any fun item => equal true (.str agent) item)
  | .dict entries => .ok (entries.any fun entry => entry.1 = agent)
  | _ => .error .typeError

def firstAllows (agent : CodePoints) (context : Context) :
    List (Rule JsonValue) → Except DecisionError Bool
  | [] => .ok false
  | rule :: rules => do
      if ← ruleMet rule context then accessAllows rule agent
      else firstAllows agent context rules

def endpointAgentName : CodePoints :=
  ofString "endpoint"

def policyAllows (policy : List (Rule JsonValue)) (agent : CodePoints) (context : Context) :
    Except DecisionError Bool :=
  if agent = endpointAgentName ∨ policy = [] then .ok true else firstAllows agent context policy

/-! ### The documented rule -/

mutual

/-- The JSON value that a YAML value is; none where it has another form or a key that is no text. -/
def plain? : Yaml → Option JsonValue
  | .null => some .null
  | .bool value => some (.bool value)
  | .int value => some (.int value)
  | .float value => some (.float value)
  | .str value => some (.str value)
  | .list items => (plainItems items).map .list
  | .dict entries => (plainEntries entries).map .dict
  | .foreign _ => none

def plainItems : List Yaml → Option (List JsonValue)
  | [] => some []
  | item :: items => do
      let item ← plain? item
      let items ← plainItems items
      some (item :: items)

def plainEntries : List (Yaml × Yaml) → Option (List (CodePoints × JsonValue))
  | [] => some []
  | (.str key, value) :: entries => do
      let value ← plain? value
      let entries ← plainEntries entries
      some ((key, value) :: entries)
  | _ :: _ => none

end

/-- The key is in the context, with that value. -/
def Present (context : Context) (entry : Yaml × Yaml) : Prop :=
  ∃ key, entry.1 = .str key ∧ ∃ value ∈ get context key,
    ∃ expected ∈ plain? entry.2, equal false value expected = true

/-- Each key of the rule's `match` is in the context, with its value. -/
def Met (context : Context) (rule : Rule Yaml) : Prop :=
  match rule.matched with
  | none => True
  | some (.dict entries) => ∀ entry ∈ entries, Present context entry
  | some _ => False

/-- The rule allows all agents, or lists this one. -/
def Grants (rule : Rule Yaml) (agent : CodePoints) : Prop :=
  rule.access = some (.str (ofString "all")) ∨ ∃ items, rule.access = some (.list items) ∧
    .str agent ∈ items

/-- The rule is met, no other one with more keys is, and with as many none before it. -/
def Decides (rules : List (Rule Yaml)) (context : Context) (rule : Rule Yaml) : Prop :=
  ∃ before after, rules = before ++ rule :: after ∧ Met context rule ∧
    (∀ other ∈ before, Met context other → keyCount other < keyCount rule) ∧
    ∀ other ∈ after, Met context other → keyCount other ≤ keyCount rule

/-- A call must be refused. -/
def Denied (rules : List (Rule Yaml)) (agent : CodePoints) (context : Context) : Prop :=
  agent ≠ endpointAgentName ∧ rules ≠ [] ∧
    ((∀ rule ∈ rules, ¬ Met context rule) ∨
      ∃ rule, Decides rules context rule ∧ ¬ Grants rule agent)

/-- The decision is made, and the call refused exactly when it must be. -/
def DecidesAsDocumented (rules : List (Rule Yaml)) (policy : List (Rule JsonValue))
    (agent : CodePoints) (context : Context) : Prop :=
  ∃ allowed, policyAllows policy agent context = .ok allowed ∧
    (allowed = false ↔ Denied rules agent context)

/-! ### Where the code stops -/

/-- Whether the rule ends the search: the context meets it by Python's `==`, or its `match` is no
mapping. -/
def stops (context : Context) (rule : Rule JsonValue) : Bool :=
  match ruleMet rule context with
  | .ok met => met
  | .error _ => true

/-- A text that is not `all` does not contain the agent's name, and a mapping does not have it as a
key. -/
def Named (published : Rule JsonValue) (agent : CodePoints) : Prop :=
  (∀ text, published.access = some (.str text) → text ≠ ofString "all" → ¬ agent <:+: text) ∧
    ∀ entries, published.access = some (.dict entries) → ∀ entry ∈ entries, entry.1 ≠ agent

/-- A rule at which the search ends can be read, and it says of the agent what the rules say: where
the context meets it, by its access; where it does not, because the rule that decides says the
same. -/
structure Sound (rules : List (Rule Yaml)) (agent : CodePoints) (context : Context)
    (rule : Rule Yaml) (published : Rule JsonValue) : Prop where
  matched : ∀ value ∈ published.matched, ∃ entries, value = .dict entries
  access : ∀ value ∈ published.access, (∃ text, value = .str text) ∨
    (∃ items, value = .list items) ∨ ∃ entries, value = .dict entries
  named : Met context rule → Named published agent
  agrees : ¬ Met context rule → (accessAllows published agent = .ok true ↔
    ∃ decider, Decides rules context decider ∧ Grants decider agent)

section Published

variable {floatText : FloatValue → CodePoints} {rule : Rule Yaml} {published : Rule JsonValue}
  {agent : CodePoints} {context : Context}

mutual

/-- A value with a JSON form is written as it. -/
theorem dumps_of_plain : ∀ (value : Yaml) {expected dumped : JsonValue},
    plain? value = some expected → value.dumps floatText Yaml.strict = .ok dumped →
      dumped = expected
  | .null, _, _, rfl, rfl => rfl
  | .bool _, _, _, rfl, rfl => rfl
  | .int value, _, _, rfl, hdumps => by
      obtain ⟨text, -, rfl⟩ := Yaml.map_eq_ok hdumps
      rfl
  | .float _, _, _, rfl, rfl => rfl
  | .str _, _, _, rfl, rfl => rfl
  | .list items, _, _, hplain, hdumps => by
      rw [Yaml.dumps] at hdumps
      obtain ⟨written, hwritten, rfl⟩ := Yaml.map_eq_ok hdumps
      obtain ⟨values, hvalues, rfl⟩ := Option.map_eq_some_iff.mp hplain
      rw [dumpsItems_of_plain items hvalues hwritten]
  | .dict entries, _, _, hplain, hdumps => by
      rw [Yaml.dumps] at hdumps
      obtain ⟨written, hwritten, rfl⟩ := Yaml.map_eq_ok hdumps
      obtain ⟨values, hvalues, rfl⟩ := Option.map_eq_some_iff.mp hplain
      rw [dumpsEntries_of_plain entries hvalues hwritten]
  | .foreign _, _, _, hplain, _ => by cases hplain

theorem dumpsItems_of_plain : ∀ (items : List Yaml) {expected dumped : List JsonValue},
    plainItems items = some expected → Yaml.dumpsItems floatText Yaml.strict items = .ok dumped →
      dumped = expected
  | [], _, _, rfl, rfl => rfl
  | item :: items, _, _, hplain, hdumps => by
      rw [Yaml.dumpsItems] at hdumps
      obtain ⟨first, hfirst, hrest⟩ := Yaml.bind_eq_ok hdumps
      obtain ⟨rest, hitems, hpair⟩ := Yaml.bind_eq_ok hrest
      cases hpair
      rw [plainItems] at hplain
      obtain ⟨value, hvalue, hnext⟩ := Option.bind_eq_some_iff.mp hplain
      obtain ⟨values, hvalues, hpair⟩ := Option.bind_eq_some_iff.mp hnext
      cases hpair
      rw [dumps_of_plain item hvalue hfirst, dumpsItems_of_plain items hvalues hitems]

theorem dumpsEntries_of_plain : ∀ (entries : List (Yaml × Yaml))
    {expected dumped : List (CodePoints × JsonValue)}, plainEntries entries = some expected →
      Yaml.dumpsEntries floatText Yaml.strict entries = .ok dumped → dumped = expected
  | [], _, _, rfl, rfl => rfl
  | (.str key, value) :: entries, _, _, hplain, hdumps => by
      rw [Yaml.dumpsEntries] at hdumps
      obtain ⟨name, hname, hvalue⟩ := Yaml.bind_eq_ok hdumps
      cases hname
      obtain ⟨first, hfirst, hrest⟩ := Yaml.bind_eq_ok hvalue
      obtain ⟨rest, hentries, hpair⟩ := Yaml.bind_eq_ok hrest
      cases hpair
      rw [plainEntries] at hplain
      obtain ⟨expected, hexpected, hnext⟩ := Option.bind_eq_some_iff.mp hplain
      obtain ⟨values, hvalues, hpair⟩ := Option.bind_eq_some_iff.mp hnext
      cases hpair
      rw [dumps_of_plain value hexpected hfirst, dumpsEntries_of_plain entries hvalues hentries]

end

/-- Each entry that is written was one of the mapping. -/
theorem exists_of_mem_dumpsEntries {entries : List (Yaml × Yaml)} {written : Context}
    (hwritten : Yaml.dumpsEntries floatText Yaml.strict entries = .ok written) :
    ∀ entry ∈ written, ∃ original ∈ entries, Yaml.dumpsKey floatText original.1 = .ok entry.1 ∧
      original.2.dumps floatText Yaml.strict = .ok entry.2 := by
  induction entries generalizing written with
  | nil =>
      cases hwritten
      exact List.forall_mem_nil _
  | cons original entries ih =>
      obtain ⟨key, value⟩ := original
      rw [Yaml.dumpsEntries] at hwritten
      obtain ⟨name, hname, hvalue⟩ := Yaml.bind_eq_ok hwritten
      obtain ⟨first, hfirst, hrest⟩ := Yaml.bind_eq_ok hvalue
      obtain ⟨rest, hentries, hpair⟩ := Yaml.bind_eq_ok hrest
      cases hpair
      rw [List.forall_mem_cons]
      refine ⟨⟨(key, value), List.mem_cons_self, hname, hfirst⟩, fun entry hentry => ?_⟩
      obtain ⟨original, hmem, horiginal⟩ := ih hentries entry hentry
      exact ⟨original, List.mem_cons_of_mem _ hmem, horiginal⟩

theorem publish_eq_ok (hpublish : publish floatText rule = .ok published) :
    dumpsField floatText rule.matched = .ok published.matched ∧
      dumpsField floatText rule.access = .ok published.access := by
  obtain ⟨matched, hmatched, hnext⟩ := Yaml.bind_eq_ok hpublish
  obtain ⟨access, haccess, hrule⟩ := Yaml.bind_eq_ok hnext
  cases hrule
  exact ⟨hmatched, haccess⟩

/-- A rule whose `match` is met is met by Python's `==`. -/
theorem ruleMet_of_met (hpublish : publish floatText rule = .ok published)
    (hmet : Met context rule) : ruleMet published context = .ok true := by
  obtain ⟨hmatched, -⟩ := publish_eq_ok hpublish
  unfold Met at hmet
  unfold ruleMet
  split at hmet
  · next hnone =>
      rw [hnone] at hmatched
      rw [← Except.ok.inj hmatched]
      rfl
  · next entries hsome =>
      rw [hsome] at hmatched
      obtain ⟨value, hvalue, hwritten⟩ := Yaml.map_eq_ok hmatched
      rw [Yaml.dumps] at hvalue
      obtain ⟨written, hentries, rfl⟩ := Yaml.map_eq_ok hvalue
      rw [← hwritten]
      change Except.ok (written.all _) = .ok true
      congr 1
      rw [List.all_eq_true]
      intro entry hentry
      obtain ⟨found, hget⟩ := Option.isSome_iff_exists.mp (isSome_get hentry)
      obtain ⟨original, hmem, hname, hdumps⟩ :=
        exists_of_mem_dumpsEntries hentries _ (mem_of_get hget)
      obtain ⟨key, hkey, value, hcontext, expected, hexpected, hequal⟩ := hmet original hmem
      rw [hkey] at hname
      cases hname
      rw [hget, Option.mem_def.mp hcontext]
      have hfound : found = expected := dumps_of_plain original.2 hexpected hdumps
      exact equal_mono value found (hfound ▸ hequal)
  · exact hmet.elim

theorem equal_str_iff (item : JsonValue) : equal true (.str agent) item = true ↔
    item = .str agent := by
  cases item with
  | str text => simp [equal, eq_comm]
  | _ => simp [equal, sameNumber, numberOf]

/-- A list that is written has the texts of the list. -/
theorem listed_iff {items : List Yaml} {written : List JsonValue}
    (hwritten : Yaml.dumpsItems floatText Yaml.strict items = .ok written) :
    (written.any fun item => equal true (.str agent) item) = true ↔ .str agent ∈ items := by
  induction items generalizing written with
  | nil =>
      cases hwritten
      simp
  | cons item items ih =>
      rw [Yaml.dumpsItems] at hwritten
      obtain ⟨first, hfirst, hrest⟩ := Yaml.bind_eq_ok hwritten
      obtain ⟨rest, hitems, hpair⟩ := Yaml.bind_eq_ok hrest
      cases hpair
      have hitem : first = .str agent ↔ .str agent = item := by
        cases item with
        | str text =>
            cases hfirst
            simp [eq_comm]
        | null =>
            cases hfirst
            simp
        | bool value =>
            cases hfirst
            simp
        | float value =>
            cases hfirst
            simp
        | int value =>
            obtain ⟨text, -, rfl⟩ := Yaml.map_eq_ok hfirst
            simp
        | list items =>
            rw [Yaml.dumps] at hfirst
            obtain ⟨values, -, rfl⟩ := Yaml.map_eq_ok hfirst
            simp
        | dict entries =>
            rw [Yaml.dumps] at hfirst
            obtain ⟨values, -, rfl⟩ := Yaml.map_eq_ok hfirst
            simp
        | foreign value => cases hfirst
      rw [List.any_cons, Bool.or_eq_true, ih hitems, equal_str_iff, hitem, List.mem_cons]

/-- The access that is written says what the rule says, unless it is a text or mapping that has the
agent's name. -/
theorem accessAllows_iff_grants (hpublish : publish floatText rule = .ok published) :
    (accessAllows published agent = .ok true ↔ Grants rule agent) ↔ Named published agent := by
  obtain ⟨-, haccess⟩ := publish_eq_ok hpublish
  unfold accessAllows Grants Named
  cases hrule : rule.access with
  | none =>
      rw [hrule] at haccess
      rw [← Except.ok.inj haccess]
      simp
  | some value =>
      rw [hrule] at haccess
      obtain ⟨written, hvalue, hwritten⟩ := Yaml.map_eq_ok haccess
      rw [← hwritten]
      cases value with
      | str text =>
          cases hvalue
          by_cases hall : text = ofString "all"
          · simp [hall]
          · simp [hall]
      | list items =>
          rw [Yaml.dumps] at hvalue
          obtain ⟨values, hvalues, rfl⟩ := Yaml.map_eq_ok hvalue
          have hlisted : (values.any fun item => equal true (.str agent) item) = true ↔
              .str agent ∈ items := listed_iff hvalues
          simp [hlisted]
      | dict entries =>
          rw [Yaml.dumps] at hvalue
          obtain ⟨values, hvalues, rfl⟩ := Yaml.map_eq_ok hvalue
          simp
          constructor
          · rintro hnone key value hentry rfl
            exact hnone value hentry
          · intro hnone value hentry
            exact hnone agent value hentry rfl
      | null =>
          cases hvalue
          simp
      | bool value =>
          cases hvalue
          simp
      | int value =>
          obtain ⟨text, -, rfl⟩ := Yaml.map_eq_ok hvalue
          simp
      | float value =>
          cases hvalue
          simp
      | foreign value => cases hvalue

end Published

/-! ### The search -/

section Search

variable {floatText : FloatValue → CodePoints} {rules sorted : List (Rule Yaml)}
  {policy : List (Rule JsonValue)} {agent : CodePoints} {context : Context}

theorem firstAllows_eq (policy : List (Rule JsonValue)) : firstAllows agent context policy =
    match policy.find? (stops context) with
    | none => .ok false
    | some rule => (ruleMet rule context).bind fun _ => accessAllows rule agent := by
  induction policy with
  | nil => rfl
  | cons rule policy ih =>
      rw [firstAllows, List.find?_cons, stops]
      cases hmet : ruleMet rule context with
      | error error =>
          simp only [bind, Except.bind, hmet]
      | ok met =>
          cases met with
          | true => simp only [bind, Except.bind, hmet, if_true]
          | false => simpa only [bind, Except.bind, Bool.false_eq_true, if_false] using ih

/-- The rules and what is written of them, one by one. -/
def Published (floatText : FloatValue → CodePoints) :
    List (Rule Yaml) → List (Rule JsonValue) → Prop :=
  List.Forall₂ fun rule published => publish floatText rule = .ok published

theorem published_of_mapM (hpublish : sorted.mapM (publish floatText) = .ok policy) :
    Published floatText sorted policy := by
  induction sorted generalizing policy with
  | nil =>
      cases hpublish
      exact .nil
  | cons rule sorted ih =>
      rw [List.mapM_cons] at hpublish
      obtain ⟨published, hrule, hnext⟩ := Yaml.bind_eq_ok hpublish
      obtain ⟨rest, hrest, hpolicy⟩ := Yaml.bind_eq_ok hnext
      cases hpolicy
      exact .cons hrule (ih hrest)

theorem stops_of_met {rule : Rule Yaml} {published : Rule JsonValue}
    (hpublish : publish floatText rule = .ok published) (hmet : Met context rule) :
    stops context published = true := by
  rw [stops, ruleMet_of_met hpublish hmet]

open Classical in
theorem find?_met_of_none (hpublished : Published floatText sorted policy)
    (hfind : (sorted.zip policy).find? (fun pair => stops context pair.2) = none) :
    sorted.find? (fun rule => decide (Met context rule)) = none ∧
      policy.find? (stops context) = none := by
  induction hpublished with
  | nil => exact ⟨rfl, rfl⟩
  | cons hrule hrules ih =>
      rw [List.zip_cons_cons, List.find?_cons] at hfind
      split at hfind
      · cases hfind
      · next hstops =>
          obtain ⟨hsorted, hpolicy⟩ := ih hfind
          rw [List.find?_cons, List.find?_cons, hstops]
          refine ⟨?_, hpolicy⟩
          rw [decide_eq_false fun hmet => by simp [stops_of_met hrule hmet] at hstops]
          exact hsorted

open Classical in
theorem find?_of_some (hpublished : Published floatText sorted policy) {rule : Rule Yaml}
    {published : Rule JsonValue}
    (hfind : (sorted.zip policy).find? (fun pair => stops context pair.2) =
      some (rule, published)) :
    policy.find? (stops context) = some published ∧ publish floatText rule = .ok published ∧
      (Met context rule → sorted.find? (fun rule => decide (Met context rule)) = some rule) := by
  induction hpublished with
  | nil => cases hfind
  | cons hrule hrules ih =>
      rw [List.zip_cons_cons, List.find?_cons] at hfind
      split at hfind
      · next hstops =>
          cases hfind
          rw [List.find?_cons, List.find?_cons, hstops]
          refine ⟨rfl, hrule, fun hmet => ?_⟩
          rw [decide_eq_true hmet]
      · next hstops =>
          obtain ⟨hpolicy, hpublish, hsorted⟩ := ih hfind
          rw [List.find?_cons, List.find?_cons, hstops]
          refine ⟨hpolicy, hpublish, fun hmet => ?_⟩
          rw [decide_eq_false fun hmet => by simp [stops_of_met hrule hmet] at hstops]
          exact hsorted hmet

open Classical in
theorem decides_iff {rule : Rule Yaml} : Decides rules context rule ↔
    (rules.insertionSort MoreKeys).find? (fun rule => decide (Met context rule)) = some rule := by
  rw [StableSort.find?_insertionSort_eq_some_iff]
  simp only [Decides, StableSort.IsFirst, MoreKeys, decide_eq_true_eq, not_le]

theorem denied_iff : Denied rules agent context ↔ agent ≠ endpointAgentName ∧ rules ≠ [] ∧
    ¬ ∃ decider, Decides rules context decider ∧ Grants decider agent := by
  classical
  refine and_congr_right fun _ => and_congr_right fun _ => ?_
  simp only [decides_iff]
  cases hfind : (rules.insertionSort MoreKeys).find? (fun rule => decide (Met context rule)) with
  | none =>
      have hnone : ∀ rule ∈ rules, ¬ Met context rule := by
        intro rule hrule
        simpa using List.find?_eq_none.mp hfind rule ((List.mem_insertionSort MoreKeys).mpr hrule)
      exact iff_of_true (.inl hnone) (by simp)
  | some decider =>
      have hmem : decider ∈ rules :=
        (List.mem_insertionSort MoreKeys).mp (List.mem_of_find?_eq_some hfind)
      have hmet : Met context decider := by simpa using List.find?_some hfind
      constructor
      · rintro (hnone | ⟨rule, hrule, hgrants⟩)
        · exact absurd hmet (hnone decider hmem)
        · cases hrule
          simpa using hgrants
      · intro hgrants
        exact .inr ⟨decider, rfl, fun hgrant => hgrants ⟨decider, rfl, hgrant⟩⟩

end Search

/-! ### When a decision is right -/

section Decision

variable {floatText : FloatValue → CodePoints} {path : CodePoints} {document : Yaml}
  {rules sorted : List (Rule Yaml)} {policy : List (Rule JsonValue)} {agent : CodePoints}
  {context : Context}

theorem exists_ruleMet_iff {published : Rule JsonValue} :
    (∃ met, ruleMet published context = .ok met) ↔
      ∀ value ∈ published.matched, ∃ entries, value = .dict entries := by
  unfold ruleMet
  cases published.matched with
  | none => simp
  | some value => cases value <;> simp

theorem exists_accessAllows_iff {published : Rule JsonValue} :
    (∃ allowed, accessAllows published agent = .ok allowed) ↔
      ∀ value ∈ published.access, (∃ text, value = .str text) ∨
        (∃ items, value = .list items) ∨ ∃ entries, value = .dict entries := by
  unfold accessAllows
  cases published.access with
  | none => simp
  | some value => cases value <;> simp

/-- A rule at which the search ends, and what is decided there. -/
theorem decidesAsDocumented_at_iff {rule : Rule Yaml} {published : Rule JsonValue}
    (hpublish : publish floatText rule = .ok published)
    (hdecides : Met context rule → Decides rules context rule)
    (hdenied : Denied rules agent context ↔
      ¬ ∃ decider, Decides rules context decider ∧ Grants decider agent)
    (hallows : policyAllows policy agent context =
      (ruleMet published context).bind fun _ => accessAllows published agent) :
    DecidesAsDocumented rules policy agent context ↔ Sound rules agent context rule published := by
  rw [DecidesAsDocumented, hallows]
  by_cases hmatched : ∃ met, ruleMet published context = .ok met
  swap
  · have herror : ¬ ∃ allowed, ((ruleMet published context).bind fun _ =>
        accessAllows published agent) = .ok allowed := by
      rintro ⟨allowed, hallowed⟩
      obtain ⟨met, hmet, -⟩ := Yaml.bind_eq_ok hallowed
      exact hmatched ⟨met, hmet⟩
    refine iff_of_false ?_ fun hsound => hmatched (exists_ruleMet_iff.mpr hsound.matched)
    rintro ⟨allowed, hallowed, -⟩
    exact herror ⟨allowed, hallowed⟩
  obtain ⟨met, hmet⟩ := hmatched
  rw [hmet]
  change (∃ allowed, accessAllows published agent = .ok allowed ∧ _) ↔ _
  by_cases haccess : ∃ allowed, accessAllows published agent = .ok allowed
  swap
  · refine iff_of_false ?_ fun hsound => haccess (exists_accessAllows_iff.mpr hsound.access)
    rintro ⟨allowed, hallowed, -⟩
    exact haccess ⟨allowed, hallowed⟩
  obtain ⟨allowed, hallowed⟩ := haccess
  have hright : (∃ allowed, accessAllows published agent = .ok allowed ∧
      (allowed = false ↔ Denied rules agent context)) ↔
        (accessAllows published agent = .ok true ↔
          ∃ decider, Decides rules context decider ∧ Grants decider agent) := by
    rw [hallowed, hdenied]
    cases allowed <;> simp
  rw [hright]
  have hmatched := exists_ruleMet_iff.mp ⟨met, hmet⟩
  have haccess := exists_accessAllows_iff.mp ⟨allowed, hallowed⟩
  by_cases hmet : Met context rule
  · have hgrants : (∃ decider, Decides rules context decider ∧ Grants decider agent) ↔
        Grants rule agent := by
      constructor
      · rintro ⟨decider, hdecider, hgrants⟩
        have heq := (decides_iff.mp hdecider).symm.trans (decides_iff.mp (hdecides hmet))
        exact Option.some.inj heq ▸ hgrants
      · intro hgrants
        exact ⟨rule, hdecides hmet, hgrants⟩
    rw [hgrants, accessAllows_iff_grants hpublish]
    constructor
    · intro hnamed
      exact ⟨hmatched, haccess, fun _ => hnamed, fun hnot => absurd hmet hnot⟩
    · intro hsound
      exact hsound.named hmet
  · constructor
    · intro hagrees
      exact ⟨hmatched, haccess, fun hmet' => absurd hmet' hmet, fun _ => hagrees⟩
    · intro hsound
      exact hsound.agrees hmet

/-- The decision is as documented exactly where no rule decides, or the one at which the search
ends is sound. -/
theorem decidesAsDocumented_iff (hrules : documentRules document = some rules)
    (hload : loadPolicyRules path document = .ok sorted)
    (hpublish : sorted.mapM (publish floatText) = .ok policy) :
    DecidesAsDocumented rules policy agent context ↔
      agent = endpointAgentName ∨ rules = [] ∨
        ∀ pair ∈ (sorted.zip policy).find? (fun pair => stops context pair.2),
          Sound rules agent context pair.1 pair.2 := by
  classical
  have hsorted : rules.insertionSort MoreKeys = sorted := by
    unfold loadPolicyRules at hload
    rw [hrules] at hload
    obtain ⟨lengths, -, hsorted⟩ := Yaml.map_eq_ok hload
    exact hsorted
  have hpublished := published_of_mapM hpublish
  have hempty : policy = [] ↔ rules = [] := by
    rw [← List.length_eq_zero_iff, ← hpublished.length_eq, ← hsorted, List.length_insertionSort,
      List.length_eq_zero_iff]
  by_cases hall : agent = endpointAgentName ∨ rules = []
  · refine iff_of_true ⟨true, ?_, ?_⟩ (hall.imp_right .inl)
    · exact if_pos (hall.imp_right hempty.mpr)
    · rw [denied_iff]
      refine iff_of_false (by simp) fun hdenied => ?_
      exact hall.elim hdenied.1 hdenied.2.1
  have hallows : policyAllows policy agent context = firstAllows agent context policy :=
    if_neg fun hpolicy => hall (hpolicy.imp_right hempty.mp)
  rw [firstAllows_eq] at hallows
  rw [not_or] at hall
  simp only [hall.1, hall.2, false_or]
  have hdenied : Denied rules agent context ↔
      ¬ ∃ decider, Decides rules context decider ∧ Grants decider agent := by
    rw [denied_iff]
    simp [hall.1, hall.2]
  cases hfind : (sorted.zip policy).find? (fun pair => stops context pair.2) with
  | none =>
      obtain ⟨hmet, hstops⟩ := find?_met_of_none hpublished hfind
      rw [hstops] at hallows
      refine iff_of_true ⟨false, hallows, iff_of_true rfl ?_⟩ (by simp)
      rw [hdenied]
      rintro ⟨decider, hdecider, -⟩
      rw [decides_iff, hsorted, hmet] at hdecider
      cases hdecider
  | some pair =>
      obtain ⟨rule, published⟩ := pair
      obtain ⟨hpolicy, hrule, hmet⟩ := find?_of_some hpublished hfind
      rw [hpolicy] at hallows
      rw [decidesAsDocumented_at_iff hrule
        (fun hmet' => decides_iff.mpr (hsorted ▸ hmet hmet')) hdenied hallows]
      simp

end Decision

/-! ### A list, and a text where a list is meant -/

def noFloats (_ : FloatValue) : CodePoints :=
  []

def planner : CodePoints :=
  ofString "Planner"

/-- A file with one rule, for every request. -/
def oneRule (access : Yaml) : Yaml :=
  .dict [(.str (ofString "rules"), .list [.dict [(.str (ofString "access"), access)]])]

def ruleFor {Value : Type} (access : Value) : Rule Value where
  matched := none
  access := some access

theorem documentRules_oneRule (access : Yaml) :
    documentRules (oneRule access) = some [ruleFor access] := by
  simp [documentRules, rulesOf, oneRule, ruleOf, ruleFor, Yaml.get, Yaml.isKey, isMapping]
  decide

theorem loadPolicyRules_oneRule (access : Yaml) :
    loadPolicyRules [] (oneRule access) = .ok [ruleFor access] := by
  rw [loadPolicyRules, documentRules_oneRule]
  rfl

theorem decidesAsDocumented_list :
    DecidesAsDocumented [ruleFor (.list [.str planner])] [ruleFor (.list [.str planner])] planner
      [] := by
  have hpublish : [ruleFor (.list [.str planner])].mapM (publish noFloats) =
      .ok [ruleFor (.list [.str planner])] := rfl
  refine (decidesAsDocumented_iff (documentRules_oneRule _) (loadPolicyRules_oneRule _)
    hpublish).mpr (.inr (.inr ?_))
  rintro pair ⟨⟩
  refine ⟨fun value hvalue => (nomatch hvalue), ?_, fun _ => ⟨?_, ?_⟩, fun hnot => ?_⟩
  · rintro value ⟨⟩
    exact .inr (.inl ⟨_, rfl⟩)
  · rintro text ⟨⟩
  · rintro entries ⟨⟩
  · exact absurd trivial hnot

/-- `access: PlannerV2` lets `Planner` through. -/
theorem not_decidesAsDocumented_text :
    documentRules (oneRule (.str (ofString "PlannerV2"))) =
        some [ruleFor (.str (ofString "PlannerV2"))] ∧
      loadPolicyRules [] (oneRule (.str (ofString "PlannerV2"))) =
        .ok [ruleFor (.str (ofString "PlannerV2"))] ∧
      [ruleFor (.str (ofString "PlannerV2"))].mapM (publish noFloats) =
        .ok [ruleFor (.str (ofString "PlannerV2"))] ∧
      ¬ DecidesAsDocumented [ruleFor (.str (ofString "PlannerV2"))]
        [ruleFor (.str (ofString "PlannerV2"))] planner [] := by
  refine ⟨documentRules_oneRule _, loadPolicyRules_oneRule _, rfl, ?_⟩
  rintro ⟨allowed, hallowed, hdenied⟩
  have hne : planner ≠ endpointAgentName := by decide
  have hinfix : planner <:+: ofString "PlannerV2" := ⟨[], ofString "V2", rfl⟩
  have hallows : policyAllows [ruleFor (.str (ofString "PlannerV2"))] planner [] = .ok true := by
    rw [policyAllows, if_neg (by simp [hne])]
    exact congrArg Except.ok (decide_eq_true (.inr hinfix))
  rw [hallows] at hallowed
  cases hallowed
  have hrefused : Denied [ruleFor (.str (ofString "PlannerV2"))] planner [] := by
    refine ⟨hne, by simp, .inr ⟨_, ⟨[], [], rfl, trivial, by simp, by simp⟩, ?_⟩⟩
    rintro (hall | ⟨items, hitems, -⟩)
    · exact absurd hall (by simp [ruleFor]; decide)
    · cases hitems
  exact absurd (hdenied.mpr hrefused) (by simp)

end CanyonOS.PolicyAccess
