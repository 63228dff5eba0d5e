import CanyonOS.Lib.TransitionSystem
import CanyonOS.Prompts.Versions

/-!
# The prompt store

The stored prompts of a project and what agents are sent, `prompts:config`, under the API's writes.
Each write is one transaction that holds the project's row: it changes the rows, publishes the live
versions, and commits. It may fail after each of these.
-/

namespace CanyonOS.Prompts

structure Row where
  name : Text
  version : Text
  content : Text
  live : Bool
  createdAt : Text

namespace Row

/-- of the unique index -/
def key (row : Row) : Text × Text :=
  (row.name, row.version)

def toStored (row : Row) : StoredPrompt where
  version := row.version
  content := row.content
  updatedAt := some row.createdAt
  live := row.live

end Row

/-- `stored_config` at a prompt. -/
def storedConfig (rows : List Row) (name : Text) : List StoredPrompt :=
  (rows.filter fun row => row.name = name).map Row.toStored

/-- `prompts.yaml`, its versions that are valid. -/
abbrev Yaml := AList fun _ : Text => List StoredPrompt

/-- The names that every object has a value at. -/
def inherited : List Text :=
  ["constructor", "hasOwnProperty", "isPrototypeOf", "propertyIsEnumerable", "toLocaleString",
    "toString", "valueOf", "__proto__", "__defineGetter__", "__defineSetter__", "__lookupGetter__",
    "__lookupSetter__"].map String.toList

inductive Change where
  | storeNewYamlPrompts (yaml : Yaml)
  | createSystemPrompt (name content : Text)
  | setLive (name version : Text)

section Change

variable {Key : Type*} [LinearOrder Key] (js : Runtime Key)

def newYamlPrompts (yaml : Yaml) (rows : List Row) : List (Text × Prompt) :=
  yaml.entries.filterMap fun entry =>
    if storedConfig rows entry.1 = [] ∧ entry.1 ∉ inherited then
      (parsePrompt js entry.2).map fun prompt => (entry.1, prompt)
    else none

/-- A version that `prompts.yaml` does not date is dated `now`. -/
def newRow (now name : Text) (prompt : Prompt) (version : SystemPrompt) : Option Row :=
  let createdAt := match version.updatedAt.filter (· ≠ []) with
    | some updatedAt => js.isoDate updatedAt
    | none => some now
  createdAt.map fun createdAt => {
    name
    version := version.version
    content := version.content
    live := version.version = prompt.live.version
    createdAt }

def newRows (now : Text) (prompts : List (Text × Prompt)) : Option (List Row) :=
  (prompts.flatMap fun item => item.2.versions.map fun version => (item, version)).mapM
    fun (item, version) => newRow js now item.1 item.2 version

def insertSystemPrompts (rows new : List Row) : Option (List Row) :=
  if ((rows ++ new).map Row.key).Nodup then some (rows ++ new) else none

def setLiveSystemPrompt (name version : Text) (row : Row) : Row :=
  if row.name = name then { row with live := row.version = version } else row

def livePrompts (rows : List Row) (name : Text) : Option SystemPrompt :=
  (parsePrompt js (storedConfig rows name)).map Prompt.live

/-- The rows after a change, unless it fails. -/
def Change.apply (now : Text) (rows : List Row) : Change → Option (List Row)
  | .storeNewYamlPrompts yaml => do
      let new ← newRows js now (newYamlPrompts js yaml rows)
      insertSystemPrompts rows new
  | .createSystemPrompt name content => do
      let prompt ← parsePrompt js (storedConfig rows name)
      let version := nextVersion js name prompt content
      insertSystemPrompts rows [{ name, version, content, live := false, createdAt := now }]
  | .setLive name version => do
      let prompt ← parsePrompt js (storedConfig rows name)
      if version ∈ prompt.versions.map SystemPrompt.version then
        some (rows.map (setLiveSystemPrompt name version))
      else none

end Change

/-- Versions of a prompt differ, and one of them is live. -/
structure Consistent (rows : List Row) : Prop where
  nodup : (rows.map Row.key).Nodup
  live : ∀ row ∈ rows, ∃ live ∈ rows, live.name = row.name ∧ live.live = true ∧
    ∀ other ∈ rows, other.name = row.name → other.live = true → other = live

/-! ### What a change does to the rows -/

section Rows

variable {Key : Type*} [LinearOrder Key] {js : Runtime Key} {rows pending : List Row}
  {now name version content : Text}

theorem Consistent.eq_of_key (hconsistent : Consistent rows) {row other : Row} (hrow : row ∈ rows)
    (hother : other ∈ rows) (hkey : row.key = other.key) : row = other :=
  List.inj_on_of_nodup_map hconsistent.nodup hrow hother hkey

theorem mem_storedConfig_iff {spec : StoredPrompt} :
    spec ∈ storedConfig rows name ↔ ∃ row ∈ rows, row.name = name ∧ row.toStored = spec := by
  rw [storedConfig, List.mem_map]
  constructor
  · rintro ⟨row, hrow, heq⟩
    obtain ⟨hmem, hname⟩ := List.mem_filter.mp hrow
    exact ⟨row, hmem, of_decide_eq_true hname, heq⟩
  · rintro ⟨row, hmem, hname, heq⟩
    exact ⟨row, List.mem_filter.mpr ⟨hmem, decide_eq_true hname⟩, heq⟩

theorem storedConfig_eq_nil_iff :
    storedConfig rows name = [] ↔ ∀ row ∈ rows, row.name ≠ name := by
  rw [storedConfig, List.map_eq_nil_iff, List.filter_eq_nil_iff]
  simp only [decide_eq_true_eq, ne_eq]

theorem exists_mem_of_parsePrompt {prompt : Prompt}
    (hprompt : parsePrompt js (storedConfig rows name) = some prompt) :
    ∃ row ∈ rows, row.name = name := by
  by_contra hnone
  push Not at hnone
  have hnil := storedConfig_eq_nil_iff.mpr hnone
  rw [parsePrompt_eq_none.mpr hnil] at hprompt
  cases hprompt

/-- With one live row, that is the live version. -/
theorem livePrompts_eq {live : Row} (hlive : live ∈ rows) (hflag : live.live = true)
    (honly : ∀ other ∈ rows, other.name = live.name → other.live = true → other = live) :
    livePrompts js rows live.name = some live.toStored.toSystemPrompt := by
  have hmem : live.toStored ∈ storedConfig rows live.name :=
    mem_storedConfig_iff.mpr ⟨live, hlive, rfl, rfl⟩
  cases hprompt : parsePrompt js (storedConfig rows live.name) with
  | none =>
      rw [parsePrompt_eq_none.mp hprompt] at hmem
      cases hmem
  | some prompt =>
      rw [livePrompts, hprompt, Option.map_some]
      congr 1
      refine live_eq_of_unique hprompt hmem hflag ?_
      intro spec hspec hspecLive
      obtain ⟨other, hother, hname, rfl⟩ := mem_storedConfig_iff.mp hspec
      rw [honly other hother hname hspecLive]

theorem eq_of_insertSystemPrompts {new : List Row}
    (hinsert : insertSystemPrompts rows new = some pending) :
    pending = rows ++ new ∧ ((rows ++ new).map Row.key).Nodup := by
  rw [insertSystemPrompts] at hinsert
  split at hinsert
  case isTrue hnodup =>
    cases hinsert
    exact ⟨rfl, hnodup⟩
  case isFalse => cases hinsert

theorem mem_of_mapM {α β : Type*} {f : α → Option β} {items : List α} {results : List β}
    (hmap : items.mapM f = some results) :
    (∀ result ∈ results, ∃ item ∈ items, f item = some result) ∧
      ∀ item ∈ items, ∃ result ∈ results, f item = some result := by
  induction items generalizing results with
  | nil =>
      cases hmap
      exact ⟨fun _ hresult => (by cases hresult), fun _ hitem => (by cases hitem)⟩
  | cons item items ih =>
      rw [List.mapM_cons, Option.bind_eq_bind, Option.bind_eq_some_iff] at hmap
      obtain ⟨result, hitem, hmap⟩ := hmap
      rw [Option.bind_eq_bind, Option.bind_eq_some_iff] at hmap
      obtain ⟨rest, hrest, hpure⟩ := hmap
      cases hpure
      obtain ⟨hresults, hitems⟩ := ih hrest
      constructor
      · intro other hother
        obtain rfl | hother := List.mem_cons.mp hother
        · exact ⟨item, List.mem_cons_self, hitem⟩
        · obtain ⟨source, hsource, heq⟩ := hresults other hother
          exact ⟨source, List.mem_cons_of_mem _ hsource, heq⟩
      · intro other hother
        obtain rfl | hother := List.mem_cons.mp hother
        · exact ⟨result, List.mem_cons_self, hitem⟩
        · obtain ⟨target, htarget, heq⟩ := hitems other hother
          exact ⟨target, List.mem_cons_of_mem _ htarget, heq⟩

omit [LinearOrder Key] in
theorem eq_of_newRow {prompt : Prompt} {spec : SystemPrompt} {row : Row}
    (hrow : newRow js now name prompt spec = some row) :
    row.name = name ∧ row.version = spec.version ∧
      (row.live = true ↔ spec.version = prompt.live.version) := by
  rw [newRow] at hrow
  obtain ⟨createdAt, -, rfl⟩ := Option.map_eq_some_iff.mp hrow
  exact ⟨rfl, rfl, decide_eq_true_iff⟩

/-- A new prompt of `prompts.yaml` has the name of an entry and of no stored row. -/
theorem mem_newYamlPrompts {yaml : Yaml} {prompt : Prompt}
    (hmem : (name, prompt) ∈ newYamlPrompts js yaml rows) :
    (∀ row ∈ rows, row.name ≠ name) ∧
      ∃ specs, yaml.lookup name = some specs ∧ parsePrompt js specs = some prompt := by
  rw [newYamlPrompts, List.mem_filterMap] at hmem
  obtain ⟨entry, hentry, heq⟩ := hmem
  split at heq
  case isTrue hnew =>
    obtain ⟨parsed, hparsed, hsame⟩ := Option.map_eq_some_iff.mp heq
    cases hsame
    refine ⟨storedConfig_eq_nil_iff.mp hnew.1, entry.2, ?_, hparsed⟩
    exact AList.mem_lookup_iff.mpr hentry
  case isFalse => cases heq

theorem consistent_storeNewYamlPrompts {yaml : Yaml} (hconsistent : Consistent rows)
    (happly : Change.apply js now rows (.storeNewYamlPrompts yaml) = some pending) :
    Consistent pending := by
  rw [Change.apply, Option.bind_eq_bind, Option.bind_eq_some_iff] at happly
  obtain ⟨new, hnew, hinsert⟩ := happly
  obtain ⟨rfl, hnodup⟩ := eq_of_insertSystemPrompts hinsert
  obtain ⟨hsource, htarget⟩ := mem_of_mapM hnew
  -- the prompt that a new row is a version of
  have hprompt : ∀ row ∈ new, ∃ prompt, (row.name, prompt) ∈ newYamlPrompts js yaml rows ∧
      (row.live = true ↔ row.version = prompt.live.version) := by
    intro row hrow
    obtain ⟨⟨⟨name, prompt⟩, spec⟩, hitem, heq⟩ := hsource row hrow
    obtain ⟨item, hprompt, hspec⟩ := List.mem_flatMap.mp hitem
    obtain ⟨version, -, hpair⟩ := List.mem_map.mp hspec
    cases hpair
    obtain ⟨rfl, hversion, hlive⟩ := eq_of_newRow heq
    rw [← hversion] at hlive
    exact ⟨prompt, hprompt, hlive⟩
  have hold : ∀ row ∈ new, ∀ other ∈ rows, other.name ≠ row.name := by
    intro row hrow
    obtain ⟨prompt, hmem, -⟩ := hprompt row hrow
    exact (mem_newYamlPrompts hmem).1
  refine ⟨hnodup, ?_⟩
  intro row hrow
  obtain hrow | hrow := List.mem_append.mp hrow
  · obtain ⟨live, hlive, hname, hflag, honly⟩ := hconsistent.live row hrow
    refine ⟨live, List.mem_append_left _ hlive, hname, hflag, ?_⟩
    intro other hother hsame
    obtain hother | hother := List.mem_append.mp hother
    · exact honly other hother hsame
    · exact absurd hsame.symm (hold other hother row hrow)
  · obtain ⟨prompt, hmem, -⟩ := hprompt row hrow
    obtain ⟨-, specs, hlookup, hparse⟩ := mem_newYamlPrompts hmem
    have hitem : ((row.name, prompt), prompt.live) ∈ (newYamlPrompts js yaml rows).flatMap
        fun item => item.2.versions.map fun version => (item, version) :=
      List.mem_flatMap.mpr ⟨_, hmem, List.mem_map_of_mem (live_mem_versions hparse)⟩
    obtain ⟨live, hlive, heq⟩ := htarget _ hitem
    obtain ⟨hname, hversion, hflag⟩ := eq_of_newRow heq
    refine ⟨live, List.mem_append_right _ hlive, hname, hflag.mpr rfl, ?_⟩
    intro other hother hsame hotherLive
    obtain hother | hother := List.mem_append.mp hother
    · exact absurd hsame (hold row hrow other hother)
    · -- both are of the entry with their name, so both are its live version
      obtain ⟨otherPrompt, hotherMem, hotherFlag⟩ := hprompt other hother
      obtain ⟨-, otherSpecs, hotherLookup, hotherParse⟩ := mem_newYamlPrompts hotherMem
      rw [hsame, hlookup, Option.some_inj] at hotherLookup
      rw [← hotherLookup, hparse, Option.some_inj] at hotherParse
      have hkey : other.key = live.key := by
        rw [Row.key, Row.key, hsame, hname, hversion, hotherFlag.mp hotherLive, hotherParse]
      exact List.inj_on_of_nodup_map hnodup (List.mem_append_right _ hother)
        (List.mem_append_right _ hlive) hkey

/-- What `create_system_prompt` inserts. -/
theorem eq_of_createSystemPrompt
    (happly : Change.apply js now rows (.createSystemPrompt name content) = some pending) :
    ∃ prompt row, parsePrompt js (storedConfig rows name) = some prompt ∧
      pending = rows ++ [row] ∧ (pending.map Row.key).Nodup ∧ row.name = name ∧
      row.version = nextVersion js name prompt content ∧ row.live = false := by
  rw [Change.apply, Option.bind_eq_bind, Option.bind_eq_some_iff] at happly
  obtain ⟨prompt, hprompt, hinsert⟩ := happly
  obtain ⟨rfl, hnodup⟩ := eq_of_insertSystemPrompts hinsert
  exact ⟨prompt, _, hprompt, rfl, hnodup, rfl, rfl, rfl⟩

theorem consistent_createSystemPrompt (hconsistent : Consistent rows)
    (happly : Change.apply js now rows (.createSystemPrompt name content) = some pending) :
    Consistent pending := by
  obtain ⟨prompt, new, hprompt, rfl, hnodup, rfl, -, hdead⟩ := eq_of_createSystemPrompt happly
  refine ⟨hnodup, ?_⟩
  intro row hrow
  obtain ⟨old, hold, hname⟩ : ∃ old ∈ rows, old.name = row.name := by
    obtain hrow | hrow := List.mem_append.mp hrow
    · exact ⟨row, hrow, rfl⟩
    · rw [List.mem_singleton.mp hrow]
      exact exists_mem_of_parsePrompt hprompt
  obtain ⟨live, hlive, hsame, hflag, honly⟩ := hconsistent.live old hold
  refine ⟨live, List.mem_append_left _ hlive, hsame.trans hname, hflag, ?_⟩
  intro other hother hotherName hotherLive
  obtain hother | hother := List.mem_append.mp hother
  · exact honly other hother (hotherName.trans hname.symm) hotherLive
  · rw [List.mem_singleton.mp hother, hdead] at hotherLive
    cases hotherLive

theorem setLiveSystemPrompt_name (row : Row) :
    (setLiveSystemPrompt name version row).name = row.name := by
  rw [setLiveSystemPrompt]
  split <;> rfl

theorem setLiveSystemPrompt_key (row : Row) :
    (setLiveSystemPrompt name version row).key = row.key := by
  rw [setLiveSystemPrompt]
  split <;> rfl

theorem setLiveSystemPrompt_live_iff {row : Row} (hname : row.name = name) :
    (setLiveSystemPrompt name version row).live = true ↔ row.version = version := by
  rw [setLiveSystemPrompt, if_pos hname]
  exact decide_eq_true_iff

theorem setLiveSystemPrompt_of_ne {row : Row} (hname : row.name ≠ name) :
    setLiveSystemPrompt name version row = row :=
  if_neg hname

theorem consistent_setLive (hconsistent : Consistent rows)
    (happly : Change.apply js now rows (.setLive name version) = some pending) :
    Consistent pending := by
  rw [Change.apply, Option.bind_eq_bind, Option.bind_eq_some_iff] at happly
  obtain ⟨prompt, hprompt, hset⟩ := happly
  split at hset
  case isFalse => cases hset
  case isTrue hversion =>
    cases hset
    have hkeys : (rows.map (setLiveSystemPrompt name version)).map Row.key = rows.map Row.key := by
      rw [List.map_map]
      exact List.map_congr_left fun row _ => setLiveSystemPrompt_key row
    refine ⟨by rw [hkeys]; exact hconsistent.nodup, ?_⟩
    intro changed hchanged
    obtain ⟨row, hrow, rfl⟩ := List.mem_map.mp hchanged
    rw [setLiveSystemPrompt_name]
    by_cases hname : row.name = name
    · -- the version that is set live is stored
      obtain ⟨found, hfound, rfl⟩ := List.mem_map.mp hversion
      obtain ⟨spec, hspec, rfl⟩ := (mem_versions_iff hprompt).mp hfound
      obtain ⟨live, hlive, hliveName, rfl⟩ := mem_storedConfig_iff.mp hspec
      refine ⟨_, List.mem_map_of_mem hlive, ?_, (setLiveSystemPrompt_live_iff hliveName).mpr rfl, ?_⟩
      · rw [setLiveSystemPrompt_name, hliveName, hname]
      · intro changed hchanged hsame hflag
        obtain ⟨other, hother, rfl⟩ := List.mem_map.mp hchanged
        rw [setLiveSystemPrompt_name, hname] at hsame
        have hkey : other.key = live.key := by
          rw [Row.key, Row.key, hsame, hliveName, (setLiveSystemPrompt_live_iff hsame).mp hflag]
          rfl
        rw [hconsistent.eq_of_key hother hlive hkey]
    · obtain ⟨live, hlive, hliveName, hflag, honly⟩ := hconsistent.live row hrow
      have hstays : ∀ other : Row, other.name = row.name →
          setLiveSystemPrompt name version other = other :=
        fun other hother => setLiveSystemPrompt_of_ne (hother ▸ hname)
      refine ⟨live, ?_, hliveName, hflag, ?_⟩
      · rw [← hstays live hliveName]
        exact List.mem_map_of_mem hlive
      · intro changed hchanged hsame hchangedFlag
        obtain ⟨other, hother, rfl⟩ := List.mem_map.mp hchanged
        rw [setLiveSystemPrompt_name] at hsame
        rw [hstays other hsame] at hchangedFlag ⊢
        exact honly other hother hsame hchangedFlag

/-- Every change that does not fail keeps one live version of each prompt, and no two the same. -/
theorem consistent_apply {change : Change} (hconsistent : Consistent rows)
    (happly : change.apply js now rows = some pending) : Consistent pending := by
  cases change with
  | storeNewYamlPrompts yaml => exact consistent_storeNewYamlPrompts hconsistent happly
  | createSystemPrompt name content => exact consistent_createSystemPrompt hconsistent happly
  | setLive name version => exact consistent_setLive hconsistent happly

theorem livePrompts_eq_none_iff :
    livePrompts js rows name = none ↔ ∀ row ∈ rows, row.name ≠ name := by
  rw [livePrompts, Option.map_eq_none_iff, parsePrompt_eq_none, storedConfig_eq_nil_iff]

/-- The live versions are determined by the rows that are live. -/
theorem livePrompts_eq_of_live (hconsistent : Consistent rows) (hpending : Consistent pending)
    (hnames : ∀ row ∈ pending, ∃ old ∈ rows, old.name = row.name)
    (hkept : ∀ row ∈ rows, row ∈ pending) : livePrompts js pending = livePrompts js rows := by
  funext name
  by_cases hname : ∃ row ∈ rows, row.name = name
  · obtain ⟨row, hrow, rfl⟩ := hname
    obtain ⟨live, hlive, hsame, hflag, honly⟩ := hconsistent.live row hrow
    obtain ⟨live', hlive', hsame', hflag', honly'⟩ := hpending.live row (hkept row hrow)
    have heq : live = live' := honly' live (hkept live hlive) hsame hflag
    subst heq
    rw [← hsame] at honly honly' ⊢
    rw [livePrompts_eq hlive hflag honly, livePrompts_eq hlive' hflag honly']
  · have hnone : ∀ row ∈ rows, row.name ≠ name := fun row hrow heq => hname ⟨row, hrow, heq⟩
    rw [livePrompts_eq_none_iff.mpr hnone, livePrompts_eq_none_iff]
    intro row hrow heq
    obtain ⟨old, hold, hsame⟩ := hnames row hrow
    exact hnone old hold (hsame.trans heq)

/-- `create_system_prompt` changes no live version. -/
theorem livePrompts_createSystemPrompt (hconsistent : Consistent rows)
    (happly : Change.apply js now rows (.createSystemPrompt name content) = some pending) :
    livePrompts js pending = livePrompts js rows := by
  have hpending := consistent_createSystemPrompt hconsistent happly
  obtain ⟨prompt, new, hprompt, rfl, -, rfl, -⟩ := eq_of_createSystemPrompt happly
  refine livePrompts_eq_of_live hconsistent hpending ?_ fun row hrow => List.mem_append_left _ hrow
  intro row hrow
  obtain hrow | hrow := List.mem_append.mp hrow
  · exact ⟨row, hrow, rfl⟩
  · rw [List.mem_singleton.mp hrow]
    exact exists_mem_of_parsePrompt hprompt

end Rows

/-! ### Writes -/

/-- Where a write stands that holds the project's row. -/
inductive Phase where
  | locked
  | changed (now : Text) (pending : List Row)
  | published (now : Text) (pending : List Row)

inductive Writer where
  | idle
  /-- `list_prompts`, between its two reads -/
  | lists (yaml : Yaml)
  | waits (change : Change)
  | ended

structure State (WriterId : Type*) where
  /-- `prompts:yaml` -/
  yaml : Yaml
  committed : List Row
  /-- `prompts:config`, once the API has written it -/
  config : Option (Text → Option SystemPrompt)
  transaction : Option (WriterId × Change × Phase)
  writers : WriterId → Writer

inductive Action (WriterId : Type*) where
  /-- `prompts.yaml` is deployed again -/
  | deploys (yaml : Yaml)
  | loads (writer : WriterId)
  | lists (writer : WriterId)
  | checks (writer : WriterId)
  | creates (writer : WriterId) (name content : Text)
  | setsLive (writer : WriterId) (name version : Text)
  | locks (writer : WriterId)
  | changes (now : Text)
  | publishes
  | commits
  /-- the write in progress; what it changed is rolled back -/
  | fails
  /-- a write that waits -/
  | stops (writer : WriterId)

section Step

variable {Key : Type*} [LinearOrder Key] (js : Runtime Key) {WriterId : Type*}
  [DecidableEq WriterId] (state : State WriterId)

def State.set (writer : WriterId) (next : Writer) : State WriterId :=
  { state with writers := Function.update state.writers writer next }

def beginStep (writer : WriterId) (next : Writer) : Option (State WriterId) :=
  match state.writers writer with
  | .idle => some (state.set writer next)
  | _ => none

def step (state : State WriterId) : Action WriterId → Option (State WriterId)
  | .deploys yaml => some { state with yaml }
  | .loads writer => beginStep state writer (.waits (.storeNewYamlPrompts state.yaml))
  | .lists writer => beginStep state writer (.lists state.yaml)
  | .checks writer =>
      match state.writers writer with
      | .lists yaml =>
          some (state.set writer
            (if newYamlPrompts js yaml state.committed = [] then .ended
            else .waits (.storeNewYamlPrompts yaml)))
      | _ => none
  | .creates writer name content =>
      beginStep state writer (.waits (.createSystemPrompt name content))
  | .setsLive writer name version => beginStep state writer (.waits (.setLive name version))
  | .locks writer =>
      match state.writers writer, state.transaction with
      | .waits change, none =>
          some ({ state with transaction := some (writer, change, .locked) }.set writer .ended)
      | _, _ => none
  | .changes now =>
      match state.transaction with
      | some (writer, change, .locked) =>
          some { state with
            transaction := (change.apply js now state.committed).map fun pending =>
              (writer, change, .changed now pending) }
      | _ => none
  | .publishes =>
      match state.transaction with
      | some (writer, change, .changed now pending) =>
          some { state with
            config := some (livePrompts js pending)
            transaction := some (writer, change, .published now pending) }
      | _ => none
  | .commits =>
      match state.transaction with
      | some (_, _, .published _ pending) =>
          some { state with committed := pending, transaction := none }
      | _ => none
  | .fails =>
      match state.transaction with
      | some _ => some { state with transaction := none }
      | none => none
  | .stops writer => some (state.set writer .ended)

def initial (yaml : Yaml) : State WriterId where
  yaml := yaml
  committed := []
  config := none
  transaction := none
  writers _ := .idle

def system (WriterId : Type*) [DecidableEq WriterId] :
    TransitionSystem (State WriterId) (Action WriterId) where
  step := step js

end Step

section Runs

variable {Key : Type*} [LinearOrder Key] (js : Runtime Key) {WriterId : Type*}

/-- What the API has published is what is live. -/
def Settled (state : State WriterId) : Prop :=
  ∀ config, state.config = some config → config = livePrompts js state.committed

/-- The versions of the prompt have numbers that a `Number` can tell from the next. -/
def Numbered (rows : List Row) : Change → Prop
  | .createSystemPrompt name _ => ∀ row ∈ rows, row.name = name → revision row.version < 2 ^ 53
  | .storeNewYamlPrompts _ | .setLive _ _ => True

/-- `create_system_prompt` adds a version above every one of its prompt, and changes no live one. -/
def AddsNext (before after : List Row) : Change → Prop
  | .createSystemPrompt name _ =>
      livePrompts js after = livePrompts js before ∧
        ∃ row, after = before ++ [row] ∧ row.name = name ∧
          ∀ old ∈ before, old.name = name → revision old.version < revision row.version
  | .storeNewYamlPrompts _ | .setLive _ _ => True

/-- The live version of each prompt is the same. -/
def SameLive (rows others : List Row) : Prop :=
  ∀ row ∈ rows ++ others, livePrompts js rows row.name = livePrompts js others row.name

instance (rows others : List Row) : Decidable (SameLive js rows others) :=
  inferInstanceAs (Decidable (∀ row ∈ rows ++ others, _ = _))

/-- What holds after every step. -/
def StoreHolds (before : State WriterId) (action : Action WriterId) (after : State WriterId) :
    Prop :=
  Consistent after.committed ∧ (after.transaction = none → Settled js after) ∧
    match action, before.transaction with
    | .commits, some (_, change, _) => AddsNext js before.committed after.committed change
    | _, _ => True

/-- A version is created among small numbers, and no write fails that has published another live
version. -/
def InTime (state : State WriterId) : Action WriterId → Prop
  | .changes _ =>
      match state.transaction with
      | some (_, change, .locked) => Numbered state.committed change
      | _ => True
  | .fails =>
      match state.transaction with
      | some (_, _, .published _ pending) => SameLive js pending state.committed
      | _ => True
  | _ => True

instance (rows : List Row) : (change : Change) → Decidable (Numbered rows change)
  | .createSystemPrompt name _ =>
      inferInstanceAs (Decidable (∀ row ∈ rows, row.name = name → revision row.version < 2 ^ 53))
  | .storeNewYamlPrompts _ | .setLive _ _ => inferInstanceAs (Decidable True)

instance (state : State WriterId) : (action : Action WriterId) → Decidable (InTime js state action)
  | .changes _ =>
      match htx : state.transaction with
      | some (_, _, .locked) => decidable_of_iff (Numbered state.committed _) (by rw [InTime, htx])
      | some (_, _, .changed _ _) | some (_, _, .published _ _) | none =>
          isTrue (by rw [InTime, htx]; trivial)
  | .fails =>
      match htx : state.transaction with
      | some (_, _, .published _ _) =>
          decidable_of_iff (SameLive js _ state.committed) (by rw [InTime, htx])
      | some (_, _, .changed _ _) | some (_, _, .locked) | none =>
          isTrue (by rw [InTime, htx]; trivial)
  | .deploys _ | .loads _ | .lists _ | .checks _ | .creates _ _ _ | .setsLive _ _ _ | .locks _
  | .publishes | .commits | .stops _ => isTrue trivial

/-- What holds of a write in progress. -/
def Progress (state : State WriterId) : Option (WriterId × Change × Phase) → Prop
  | none => Settled js state
  | some (_, _, .locked) => Settled js state
  | some (_, change, .changed now pending) =>
      Settled js state ∧ change.apply js now state.committed = some pending ∧
        Numbered state.committed change
  | some (_, change, .published now pending) =>
      state.config = some (livePrompts js pending) ∧
        change.apply js now state.committed = some pending ∧ Numbered state.committed change

structure Sound (state : State WriterId) : Prop where
  consistent : Consistent state.committed
  progress : Progress js state state.transaction

variable {js} {state next : State WriterId}

theorem livePrompts_eq_of_sameLive {rows others : List Row} (hsame : SameLive js rows others) :
    livePrompts js rows = livePrompts js others := by
  funext name
  by_cases hname : ∃ row ∈ rows ++ others, row.name = name
  · obtain ⟨row, hrow, rfl⟩ := hname
    exact hsame row hrow
  · have hnone : ∀ row ∈ rows ++ others, row.name ≠ name := by
      intro row hrow heq
      exact hname ⟨row, hrow, heq⟩
    rw [livePrompts_eq_none_iff.mpr fun row hrow => hnone row (List.mem_append_left _ hrow),
      livePrompts_eq_none_iff.mpr fun row hrow => hnone row (List.mem_append_right _ hrow)]

theorem addsNext_of_apply {change : Change} {now : Text} {rows pending : List Row}
    (hconsistent : Consistent rows) (happly : change.apply js now rows = some pending)
    (hnumbered : Numbered rows change) : AddsNext js rows pending change := by
  cases change with
  | createSystemPrompt name content =>
      refine ⟨livePrompts_createSystemPrompt hconsistent happly, ?_⟩
      obtain ⟨prompt, row, hprompt, hpending, -, hname, hversion, -⟩ :=
        eq_of_createSystemPrompt happly
      refine ⟨row, hpending, hname, ?_⟩
      intro old hold holdName
      rw [hversion]
      have hspec : old.toStored ∈ storedConfig rows name :=
        mem_storedConfig_iff.mpr ⟨old, hold, holdName, rfl⟩
      refine revision_lt_nextVersion hprompt ?_ hspec
      intro spec hmem
      obtain ⟨other, hother, hotherName, rfl⟩ := mem_storedConfig_iff.mp hmem
      exact hnumbered other hother hotherName
  | storeNewYamlPrompts yaml => trivial
  | setLive name version => trivial

/-- A step of a writer that does not hold the row. -/
theorem sound_of_same (hsound : Sound js state) (hcommitted : next.committed = state.committed)
    (hconfig : next.config = state.config) (htransaction : next.transaction = state.transaction) :
    Sound js next := by
  have hsettled : Settled js state → Settled js next := by
    intro hsettled
    rw [Settled, hconfig, hcommitted]
    exact hsettled
  refine ⟨by rw [hcommitted]; exact hsound.consistent, ?_⟩
  have hprogress := hsound.progress
  rw [htransaction]
  cases htx : state.transaction with
  | none =>
      rw [htx] at hprogress
      exact hsettled hprogress
  | some write =>
      obtain ⟨writer, change, phase⟩ := write
      rw [htx] at hprogress
      cases phase with
      | locked => exact hsettled hprogress
      | changed now pending =>
          rw [Progress, hcommitted]
          exact ⟨hsettled hprogress.1, hprogress.2⟩
      | published now pending =>
          rw [Progress, hcommitted, hconfig]
          exact hprogress

variable [DecidableEq WriterId] {action : Action WriterId}

theorem sound_beginStep {writer : WriterId} {after : Writer} (hsound : Sound js state)
    (hstep : beginStep state writer after = some next) : Sound js next := by
  rw [beginStep] at hstep
  split at hstep
  · cases hstep
    exact sound_of_same hsound rfl rfl rfl
  · cases hstep

theorem sound_step (hsound : Sound js state) (hintime : InTime js state action)
    (hstep : step js state action = some next) : Sound js next := by
  cases action with
  | deploys yaml =>
      cases hstep
      exact sound_of_same hsound rfl rfl rfl
  | loads writer => exact sound_beginStep hsound hstep
  | lists writer => exact sound_beginStep hsound hstep
  | checks writer =>
      simp only [step] at hstep
      split at hstep
      · cases hstep
        exact sound_of_same hsound rfl rfl rfl
      · cases hstep
  | creates writer name content => exact sound_beginStep hsound hstep
  | setsLive writer name version => exact sound_beginStep hsound hstep
  | locks writer =>
      simp only [step] at hstep
      split at hstep
      case h_1 change _ hnone =>
        cases hstep
        have hprogress := hsound.progress
        rw [hnone] at hprogress
        exact ⟨hsound.consistent, hprogress⟩
      case h_2 => cases hstep
  | changes now =>
      simp only [step] at hstep
      split at hstep
      case h_1 writer change htx =>
        cases hstep
        have hprogress := hsound.progress
        rw [htx] at hprogress
        rw [InTime, htx] at hintime
        refine ⟨hsound.consistent, ?_⟩
        cases happly : change.apply js now state.committed with
        | none => exact hprogress
        | some pending => exact ⟨hprogress, happly, hintime⟩
      case h_2 => cases hstep
  | publishes =>
      simp only [step] at hstep
      split at hstep
      case h_1 writer change now pending htx =>
        cases hstep
        have hprogress := hsound.progress
        rw [htx] at hprogress
        exact ⟨hsound.consistent, rfl, hprogress.2⟩
      case h_2 => cases hstep
  | commits =>
      simp only [step] at hstep
      split at hstep
      case h_1 writer change now pending htx =>
        cases hstep
        have hprogress := hsound.progress
        rw [htx] at hprogress
        obtain ⟨hconfig, happly, -⟩ := hprogress
        refine ⟨consistent_apply hsound.consistent happly, ?_⟩
        intro config hsome
        exact Option.some_inj.mp (hsome.symm.trans hconfig)
      case h_2 => cases hstep
  | fails =>
      simp only [step] at hstep
      split at hstep
      case h_1 write htx =>
        cases hstep
        obtain ⟨writer, change, phase⟩ := write
        have hprogress := hsound.progress
        rw [htx] at hprogress
        rw [InTime, htx] at hintime
        refine ⟨hsound.consistent, ?_⟩
        cases phase with
        | locked => exact hprogress
        | changed now pending => exact hprogress.1
        | published now pending =>
            intro config hsome
            have hsame : config = livePrompts js pending :=
              Option.some_inj.mp (hsome.symm.trans hprogress.1)
            exact hsame.trans (livePrompts_eq_of_sameLive hintime)
      case h_2 => cases hstep
  | stops writer =>
      cases hstep
      exact sound_of_same hsound rfl rfl rfl

theorem storeHolds_of_sound (hsound : Sound js state) (hnext : Sound js next)
    (hstep : step js state action = some next) : StoreHolds js state action next := by
  refine ⟨hnext.consistent, ?_, ?_⟩
  · intro hnone
    have hprogress := hnext.progress
    rw [hnone] at hprogress
    exact hprogress
  · split
    case h_1 writer change phase htx =>
      simp only [step, htx] at hstep
      have hprogress := hsound.progress
      rw [htx] at hprogress
      cases phase with
      | published now pending =>
          cases hstep
          exact addsNext_of_apply hsound.consistent hprogress.2.1 hprogress.2.2
      | locked => cases hstep
      | changed now pending => cases hstep
    case h_2 => trivial

omit [DecidableEq WriterId] in
theorem sound_initial (yaml : Yaml) : Sound js (initial yaml : State WriterId) := by
  refine ⟨⟨List.nodup_nil, ?_⟩, ?_⟩
  · intro row hrow; cases hrow
  · intro config hsome; cases hsome

/-- The store stays consistent with what agents are sent in every run in time. -/
theorem store_holds (yaml : Yaml) (actions : List (Action WriterId))
    (hintime : (system js WriterId).Guarded (InTime js) (initial yaml) actions) :
    (system js WriterId).Along (StoreHolds js) (initial yaml) actions := by
  have hinitial : Sound js (initial yaml : State WriterId) := sound_initial yaml
  refine (system js WriterId).along_of_guarded ?_ actions hinitial hintime
  intro state action next hsound hintime hstep
  have hnext := sound_step hsound hintime hstep
  exact ⟨hnext, storeHolds_of_sound hsound hnext hstep⟩

end Runs

/-! ### Runs of a few writes -/

/-- What `node` does on the texts of these runs. -/
def node : Runtime ℕ where
  contentHash content := if content = "hi".toList then "8f434346".toList else []
  collationKey := List.length
  isoDate := some

def now : Text := "2026-01-01T00:00:00.000Z".toList

def parseName : Text := "intent.parse".toList

def yamlOf (versions : List (String × Bool)) : Yaml :=
  AList.singleton parseName (versions.map fun (version, live) =>
    { version := version.toList, content := "hi".toList, updatedAt := none, live })

def writeSteps : List (Action (Fin 2)) :=
  [.changes now, .publishes, .commits]

def createdSteps : List (Action (Fin 2)) :=
  [.loads 0, .locks 0] ++ writeSteps ++ [.creates 1 parseName "hi".toList, .locks 1] ++ writeSteps

/-- The API starts, and a version is created. -/
theorem store_holds_created :
    ((system node (Fin 2)).run (initial (yamlOf [("first-v1", false)])) createdSteps).isSome = true ∧
      (system node (Fin 2)).Along (StoreHolds node) (initial (yamlOf [("first-v1", false)]))
        createdSteps :=
  ⟨by decide +kernel, store_holds _ _ (by decide +kernel)⟩

def failedSteps : List (Action (Fin 2)) :=
  [.loads 0, .locks 0] ++ writeSteps ++
    [.setsLive 1 parseName "first-v1".toList, .locks 1, .changes now, .publishes]

/-- Setting another version live fails at its commit; and a version is created after one with a
large number. -/
theorem not_storeHolds_failedCommit :
    ¬ (system node (Fin 2)).Along (StoreHolds node)
        (initial (yamlOf [("first-v1", false), ("first-v2", true)])) (failedSteps ++ [.fails]) ∧
      (((system node (Fin 2)).run (initial (yamlOf [("first-v9007199254740993", false)]))
        createdSteps).map fun state => state.committed.map fun row => revision row.version) =
        some [9007199254740993, 9007199254740992] := by
  refine ⟨?_, by decide +kernel⟩
  intro halong
  have hfinal : ((system node (Fin 2)).run
      (initial (yamlOf [("first-v1", false), ("first-v2", true)])) (failedSteps ++ [.fails])).map
      (fun state => (state.transaction.isNone, state.config.map fun config =>
        (config parseName).map SystemPrompt.version,
        (livePrompts node state.committed parseName).map SystemPrompt.version)) =
      some (true, some (some "first-v1".toList), some "first-v2".toList) := by
    decide +kernel
  obtain ⟨final, hrun, hvalues⟩ := Option.map_eq_some_iff.mp hfinal
  obtain ⟨middle, -, hsettled, -⟩ := (system node (Fin 2)).exists_last_of_along halong hrun
  rw [Prod.mk.injEq, Prod.mk.injEq] at hvalues
  obtain ⟨hnone, hconfig, hlive⟩ := hvalues
  obtain ⟨config, hsome, hpublished⟩ := Option.map_eq_some_iff.mp hconfig
  rw [hsettled (Option.isNone_iff_eq_none.mp hnone) config hsome, hlive] at hpublished
  exact absurd hpublished (by decide)

end CanyonOS.Prompts
