import CanyonOS.Gateway.SystemPrompt
import CanyonOS.Lib.StableSort
import CanyonOS.Prompts.Store

/-!
# The dashboard takes over the prompts

The deploy publishes one version of each prompt in prompts.yaml. When the dashboard starts it stores
the versions that it can read in its table and publishes its own choice in their place.
-/

namespace CanyonOS.Handover

open CodePoints JsonValue Prompts SystemPrompt

/-! ### The deploy -/

/-- `>`, which is `others` of values that are not both texts; `none` where it raises -/
def isGreater (others : JsonValue → JsonValue → Option Bool) (first second : JsonValue) :
    Option Bool :=
  match first, second with
  | .str first, .str second => some (second < first)
  | first, second => others first second

def IsJson (value : JsonValue) : Prop :=
  ∃ room, isJson room value = true

structure Interpreter where
  /-- `str` of a value that is no text -/
  str : JsonValue → CodePoints
  /-- what the character is to `int`, if a digit -/
  decimal : CodePoint → Option ℕ
  others : JsonValue → JsonValue → Option Bool
  -- what is no number is not JSON
  asymm : ∀ first second, IsJson first → IsJson second →
    isGreater others first second = some true → isGreater others second first = some false
  trans : ∀ first second third, IsJson first → IsJson second → IsJson third →
    isGreater others first second = some true → isGreater others third second = some false →
      isGreater others first third = some true

def liveKey : CodePoints :=
  ofString "live"

def updatedAtKey : CodePoints :=
  ofString "updated_at"

/-- of a version: whether it is marked, its number, when it was updated -/
structure LiveFirst where
  live : Bool
  revision : ℕ
  updated : JsonValue

/-- More digits are no number to `int`. -/
def maxDigits : ℕ := 4300

section Deploy

variable (python : Interpreter)

def str (value : JsonValue) : CodePoints :=
  match value with
  | .str text => text
  | value => python.str value

/-- The digits after a `-v` at the end, or before a last line break. -/
def revisionOf (version : CodePoints) : Except Reload.ReloadError ℕ :=
  let line := if version.getLast? = some (ofChar '\n') then version.dropLast else version
  let isDigit (char : CodePoint) : Bool := (python.decimal char).isSome
  let digits := line.rtakeWhile isDigit
  if digits ≠ [] ∧ ofString "-v" <:+ line.rdropWhile isDigit then
    if digits.length ≤ maxDigits then
      .ok (digits.foldl (fun value char => 10 * value + (python.decimal char).getD 0) 0)
    else .error .valueError
  else .ok 0

/-- `_live_first` -/
def liveFirst (version : JsonValue) : Except Reload.ReloadError LiveFirst :=
  (revisionOf python (str python ((item version versionKey).getD (.str [])))).map fun revision => {
    live := item version liveKey matches some (.bool true)
    revision
    updated := ((item version updatedAtKey).filter isTruthy).getD (.str []) }

/-- `>` of tuples -/
def LiveFirst.greater (first second : LiveFirst) : Except Reload.ReloadError Bool :=
  if first.live ≠ second.live then .ok first.live
  else if first.revision ≠ second.revision then .ok (second.revision < first.revision)
  else match isGreater python.others first.updated second.updated with
    | some greater => .ok greater
    | none => .error .typeError

def maxFrom (best : JsonValue) (key : LiveFirst) :
    List JsonValue → Except Reload.ReloadError JsonValue
  | [] => .ok best
  | version :: versions => do
      let other ← liveFirst python version
      let greater ← other.greater python key
      if greater then maxFrom version other versions else maxFrom best key versions

/-- `max(versions, key=_live_first)` -/
def maxVersion : List JsonValue → Except Reload.ReloadError JsonValue
  | [] => .error .valueError
  | version :: versions => do
      let key ← liveFirst python version
      maxFrom python version key versions

/-- The controller with this interpreter. -/
def deploy (setup : Reload.Setup) : Reload.Setup :=
  { setup with maxVersion := maxVersion python }

end Deploy

/-! ### The dashboard -/

/-- The characters of a text; half of a pair by itself is replaced when the text is stored. -/
def textOf (text : CodePoints) : Text :=
  text.map fun point => (toChar? point).getD (Char.ofNat 0xFFFD)

def pointsOf (text : Text) : CodePoints :=
  text.map ofChar

/-- nullable, null without one -/
def readUpdatedAt : Option JsonValue → Option (Option Text)
  | none | some .null => some none
  | some (.str text) => some (some (textOf text))
  | some _ => none

def readLive : Option JsonValue → Option Bool
  | none => some false
  | some (.bool live) => some live
  | some _ => none

section Dashboard

-- `String` of a value that is no text
variable (string : JsonValue → Text)

def coerce : Option JsonValue → Text
  | none => "undefined".toList
  | some (.str text) => textOf text
  | some value => string value

/-- `StoredSystemPromptSchema`, `none` for what it refuses. -/
def readVersion (version : JsonValue) : Option StoredPrompt :=
  match version with
  | .dict entries =>
      match JsonValue.get entries contentKey, readUpdatedAt (JsonValue.get entries updatedAtKey),
          readLive (JsonValue.get entries liveKey) with
      | some (.str content), some updatedAt, some live => some {
          version := coerce string (JsonValue.get entries versionKey)
          content := textOf content
          updatedAt
          live }
      | _, _, _ => none
  | _ => none

/-- `versions_of`, those that are valid. -/
def readVersions : JsonValue → List StoredPrompt
  | .list versions => versions.filterMap (readVersion string)
  | _ => []

/-- A name with half of a pair is not published under itself. -/
def yamlOf (prompts : List (CodePoints × JsonValue)) : Prompts.Yaml :=
  (prompts.reverse.filterMap fun prompt =>
    (toChars? prompt.1).map fun name =>
      (⟨name, readVersions string prompt.2⟩ : (_ : Text) × List StoredPrompt)).toAList

/-- `parse_config` of the document as JSON, which has no NaN and no infinity; `room` is how deep
`JSON.parse` can go. -/
def parseConfig (room : ℕ) (document : JsonValue) : Option Prompts.Yaml :=
  if isJson room document then
    match document with
    | .dict document =>
        match JsonValue.get document promptsKey with
        | none => some ∅
        | some (.dict prompts) => some (yamlOf string prompts)
        | some _ => none
    | _ => none
  else none

/-- A text of the table has no NUL. -/
def isText (text : Text) : Bool :=
  Char.ofNat 0 ∉ text

def isStorable (row : Row) : Bool :=
  isText row.name && isText row.version && isText row.content

variable {Key : Type*} [LinearOrder Key] (js : Runtime Key)

/-- `load_prompts` with an empty table: what it publishes. -/
def loadPrompts (room : ℕ) (now : Text) (document : JsonValue) :
    Option (Text → Option SystemPrompt) := do
  let yaml ← parseConfig string room document
  let rows ← Change.apply js now [] (.storeNewYamlPrompts yaml)
  if rows.all isStorable then some (livePrompts js rows) else none

end Dashboard

/-! ### The claim -/

def promptsOf (document : JsonValue) : List (CodePoints × JsonValue) :=
  match item document promptsKey with
  | some (.dict prompts) => prompts
  | _ => []

section Claim

variable (python : Interpreter) (string : JsonValue → Text) {Key : Type*} [LinearOrder Key]
  (js : Runtime Key) (room : ℕ) (now : Text) (setup : Reload.Setup) (path : CodePoints)
  (document : JsonValue)

/-- What is published has the version and the content of the deploy's version. -/
def SameAs (version : JsonValue) (published : SystemPrompt) : Prop :=
  (∃ value, item version versionKey = some value ∧
    str python value = pointsOf published.version) ∧
  item version contentKey = some (.str (pointsOf published.content))

/-- The dashboard loads the document, and publishes of each prompt what the deploy chose. -/
def Agrees : Prop :=
  ∃ published, loadPrompts string js room now document = some published ∧
    ∀ name entry version, JsonValue.get (promptsOf document) name = some entry →
      Reload.liveVersion (deploy python setup) path (name, entry) = .ok (some (name, version)) →
        ∃ text prompt, name = pointsOf text ∧ published text = some prompt ∧
          SameAs python version prompt

/-- The first version is ahead of the second for the deploy. -/
def Ahead (first second : JsonValue) : Prop :=
  ∃ key other, liveFirst python first = .ok key ∧ liveFirst python second = .ok other ∧
    key.greater python other = .ok true

/-- No version is ahead for the deploy. -/
def Chosen (versions : List JsonValue) (version : JsonValue) : Prop :=
  StableSort.IsFirst (fun first second => ¬ Ahead python second first) (fun _ => true) versions
    version

/-- No version is ahead for the dashboard, of those flagged live if there are any. -/
def Leads (specs : List StoredPrompt) (spec : StoredPrompt) : Prop :=
  StableSort.IsFirst (Before js) StoredPrompt.live specs spec ∨
    (∀ other ∈ specs, other.live = false) ∧
      StableSort.IsFirst (Before js) (fun _ => true) specs spec

def Storable (name : Text) (spec : StoredPrompt) : Prop :=
  (∀ date, spec.updatedAt = some date → date ≠ [] → (js.isoDate date).isSome) ∧
    isText name ∧ isText spec.version ∧ isText spec.content

/-- `prompts` is missing or a mapping, and everything is JSON; of each name that not every object
has a value at, the versions that the dashboard reads can be stored and have different texts; and
each prompt with a version has such a name, and a version that has none ahead of it for the deploy
nor, as the dashboard reads it, for the dashboard. -/
def HoldsWhen : Prop :=
  (isJson room document ∧ ∀ value, item document promptsKey = some value → ∃ prompts,
    value = .dict prompts) ∧
  (∀ name entry, JsonValue.get (promptsOf document) (pointsOf name) = some entry →
    name ∉ inherited →
      (∀ spec ∈ readVersions string entry, Storable js name spec) ∧
        ((readVersions string entry).map fun spec => spec.version).Nodup) ∧
  ∀ name versions, JsonValue.get (promptsOf document) name = some (.list versions) →
    versions ≠ [] →
      ∃ text version spec, name = pointsOf text ∧ text ∉ inherited ∧
        Chosen python versions version ∧ Leads js (readVersions string (.list versions)) spec ∧
          SameAs python version spec.toSystemPrompt

end Claim

/-! ### The deploy's version -/

section Deploy

variable {python : Interpreter} {setup : Reload.Setup} {path : CodePoints}

theorem isJson_of_mem_list {items : List JsonValue} (hjson : IsJson (.list items)) :
    ∀ value ∈ items, IsJson value := by
  intro value hvalue
  obtain ⟨_ | room, hroom⟩ := hjson
  · cases hroom
  · exact ⟨room, List.all_eq_true.mp hroom value hvalue⟩

theorem isJson_of_mem_dict {entries : List (CodePoints × JsonValue)}
    (hjson : IsJson (.dict entries)) : ∀ entry ∈ entries, IsJson entry.2 := by
  intro entry hentry
  obtain ⟨_ | room, hroom⟩ := hjson
  · cases hroom
  · exact ⟨room, List.all_eq_true.mp hroom entry hentry⟩

theorem isJson_item {value found : JsonValue} {key : CodePoints} (hjson : IsJson value)
    (hitem : item value key = some found) : IsJson found := by
  cases value with
  | dict entries => exact isJson_of_mem_dict hjson _ (mem_of_get hitem)
  | null | bool _ | int _ | float _ | str _ | list _ => cases hitem

theorem isJson_updated {version : JsonValue} {key : LiveFirst} (hjson : IsJson version)
    (hkey : liveFirst python version = .ok key) : IsJson key.updated := by
  obtain ⟨revision, -, rfl⟩ := Reload.Yaml.map_eq_ok hkey
  change IsJson (((item version updatedAtKey).filter isTruthy).getD (.str []))
  cases hupdated : (item version updatedAtKey).filter isTruthy with
  | none => exact ⟨0, rfl⟩
  | some updated => exact isJson_item hjson (Option.filter_eq_some_iff.mp hupdated).1

theorem greater_eq_ok_iff {first second : LiveFirst} {greater : Bool} :
    first.greater python second = .ok greater ↔
      first.live ≠ second.live ∧ first.live = greater ∨
        first.live = second.live ∧
          (first.revision ≠ second.revision ∧
              decide (second.revision < first.revision) = greater ∨
            first.revision = second.revision ∧
              isGreater python.others first.updated second.updated = some greater) := by
  unfold LiveFirst.greater
  split_ifs with hlive hrevision
  · simp [hlive]
  · simp [hrevision, not_ne_iff.mp hlive]
  · cases isGreater python.others first.updated second.updated <;>
      simp [not_ne_iff.mp hrevision, not_ne_iff.mp hlive]

section Order

variable {first second third : LiveFirst}

theorem greater_asymm (hfirst : IsJson first.updated) (hsecond : IsJson second.updated)
    (hgreater : first.greater python second = .ok true) :
    second.greater python first = .ok false := by
  have hasymm := python.asymm _ _ hfirst hsecond
  rw [greater_eq_ok_iff] at hgreater ⊢
  grind

theorem greater_trans (hfirst : IsJson first.updated) (hsecond : IsJson second.updated)
    (hthird : IsJson third.updated) (hgreater : first.greater python second = .ok true)
    (hbehind : third.greater python second = .ok false) :
    first.greater python third = .ok true := by
  have htrans := python.trans _ _ _ hfirst hsecond hthird
  rw [greater_eq_ok_iff] at hgreater hbehind ⊢
  grind

end Order

variable (python) in
/-- The deploy compares the versions, and the first is not ahead. -/
def Behind (first second : JsonValue) : Prop :=
  ∃ key other, liveFirst python first = .ok key ∧ liveFirst python second = .ok other ∧
    key.greater python other = .ok false

theorem not_ahead_of_behind {first second : JsonValue} (hbehind : Behind python first second) :
    ¬ Ahead python first second := by
  obtain ⟨key, other, hkey, hother, hfalse⟩ := hbehind
  rintro ⟨_, _, hfirst, hsecond, htrue⟩
  cases hkey.symm.trans hfirst
  cases hother.symm.trans hsecond
  cases hfalse.symm.trans htrue

theorem behind_of_ahead {first second : JsonValue} (hfirst : IsJson first) (hsecond : IsJson second)
    (hahead : Ahead python first second) : Behind python second first := by
  obtain ⟨key, other, hkey, hother, htrue⟩ := hahead
  exact ⟨other, key, hother, hkey,
    greater_asymm (isJson_updated hfirst hkey) (isJson_updated hsecond hother) htrue⟩

theorem ahead_trans {first second third : JsonValue} (hfirst : IsJson first)
    (hsecond : IsJson second) (hthird : IsJson third) (hahead : Ahead python first second)
    (hbehind : Behind python third second) : Ahead python first third := by
  obtain ⟨key, middle, hkey, hmiddle, htrue⟩ := hahead
  obtain ⟨other, _, hother, hsame, hfalse⟩ := hbehind
  cases hmiddle.symm.trans hsame
  exact ⟨key, other, hkey, hother, greater_trans (isJson_updated hfirst hkey)
    (isJson_updated hsecond hmiddle) (isJson_updated hthird hother) htrue hfalse⟩

/-- The best stays, or one of the versions is ahead of it, of those before and of none after. -/
theorem first_of_maxFrom {versions : List JsonValue} {best version : JsonValue} {key : LiveFirst}
    (hjson : ∀ version ∈ best :: versions, IsJson version)
    (hkey : liveFirst python best = .ok key)
    (hmax : maxFrom python best key versions = .ok version) :
    best = version ∧ (∀ other ∈ versions, Behind python other version) ∨
      Ahead python version best ∧ ∃ before after, versions = before ++ version :: after ∧
        (∀ other ∈ before, Ahead python version other) ∧
          ∀ other ∈ after, Behind python other version := by
  induction versions generalizing best key with
  | nil =>
      cases hmax
      exact .inl ⟨rfl, List.forall_mem_nil _⟩
  | cons other versions ih =>
      obtain ⟨hbest, hother, hversions⟩ := List.forall_mem_cons.mp hjson |>.imp_right
        List.forall_mem_cons.mp
      rw [maxFrom] at hmax
      obtain ⟨otherKey, hotherKey, hmax⟩ := Reload.Yaml.bind_eq_ok hmax
      obtain ⟨greater, hgreater, hmax⟩ := Reload.Yaml.bind_eq_ok hmax
      cases greater with
      | true =>
          have hahead : Ahead python other best := ⟨otherKey, key, hotherKey, hkey, hgreater⟩
          obtain ⟨rfl, hbehind⟩ | ⟨hversion, before, after, rfl, hbefore, hafter⟩ :=
            ih (List.forall_mem_cons.mpr ⟨hother, hversions⟩) hotherKey hmax
          · exact .inr ⟨hahead, [], versions, rfl, List.forall_mem_nil _, hbehind⟩
          · have hjson := hversions version (List.mem_append_right _ List.mem_cons_self)
            have hbehind := behind_of_ahead hother hbest hahead
            have hahead := ahead_trans hjson hother hbest hversion hbehind
            exact .inr ⟨hahead, other :: before, after, rfl,
              List.forall_mem_cons.mpr ⟨hversion, hbefore⟩, hafter⟩
      | false =>
          have hbehind : Behind python other best := ⟨otherKey, key, hotherKey, hkey, hgreater⟩
          obtain ⟨rfl, hversions⟩ | ⟨hversion, before, after, rfl, hbefore, hafter⟩ :=
            ih (List.forall_mem_cons.mpr ⟨hbest, hversions⟩) hkey hmax
          · exact .inl ⟨rfl, List.forall_mem_cons.mpr ⟨hbehind, hversions⟩⟩
          · have hjson := hversions version (List.mem_append_right _ List.mem_cons_self)
            have hahead := ahead_trans hjson hbest hother hversion hbehind
            exact .inr ⟨hversion, other :: before, after, rfl,
              List.forall_mem_cons.mpr ⟨hahead, hbefore⟩, hafter⟩

theorem chosen_of_maxVersion {version : JsonValue} {versions : List JsonValue}
    (hjson : ∀ version ∈ versions, IsJson version)
    (hmax : maxVersion python versions = .ok version) : Chosen python versions version := by
  cases versions with
  | nil => cases hmax
  | cons first versions =>
      obtain ⟨key, hkey, hmax⟩ := Reload.Yaml.bind_eq_ok hmax
      rw [Chosen, StableSort.isFirst_cons_iff]
      obtain ⟨rfl, hbehind⟩ | ⟨hahead, before, after, rfl, hbefore, hafter⟩ :=
        first_of_maxFrom hjson hkey hmax
      · exact .inl ⟨rfl, rfl, fun other hother _ => not_ahead_of_behind (hbehind other hother)⟩
      · refine .inr ⟨⟨before, after, rfl, rfl, ?_, ?_⟩, fun _ => not_not.mpr hahead⟩
        · intro other hother _
          exact not_not.mpr (hbefore other hother)
        · intro other hother _
          exact not_ahead_of_behind (hafter other hother)

/-- The deploy has a version for each prompt with versions. -/
theorem maxVersion_of_liveVersion {name : CodePoints} {entry : JsonValue}
    {result : Option (CodePoints × JsonValue)}
    (hlive : Reload.liveVersion (deploy python setup) path (name, entry) = .ok result) :
    ∃ versions, entry = .list versions ∧ (versions = [] ∧ result = none ∨
      versions ≠ [] ∧ ∃ version, maxVersion python versions = .ok version ∧
        result = some (name, version)) := by
  unfold Reload.liveVersion at hlive
  cases entry with
  | list versions =>
      dsimp only at hlive
      split_ifs at hlive with hdicts hnil
      · cases hlive
        exact ⟨versions, rfl, .inl ⟨hnil, rfl⟩⟩
      · obtain ⟨version, hmax, heq⟩ := Reload.Yaml.map_eq_ok hlive
        exact ⟨versions, rfl, .inr ⟨hnil, version, hmax, heq.symm⟩⟩
  | null | bool _ | int _ | float _ | str _ | dict _ => cases hlive

theorem ok_of_mapM {α β : Type} {f : α → Except Reload.ReloadError β} {items : List α}
    {results : List β} (hmap : items.mapM f = .ok results) :
    ∀ item ∈ items, ∃ result, f item = .ok result := by
  induction items generalizing results with
  | nil => exact List.forall_mem_nil _
  | cons item items ih =>
      rw [List.mapM_cons] at hmap
      obtain ⟨result, hitem, hmap⟩ := Reload.Yaml.bind_eq_ok hmap
      obtain ⟨rest, hrest, -⟩ := Reload.Yaml.bind_eq_ok hmap
      exact List.forall_mem_cons.mpr ⟨⟨result, hitem⟩, ih hrest⟩

variable {document live : JsonValue}

theorem exists_prompts_of_get {name : CodePoints} {entry : JsonValue}
    (hget : JsonValue.get (promptsOf document) name = some entry) :
    ∃ entries prompts, document = .dict entries ∧
      JsonValue.get entries promptsKey = some (.dict prompts) ∧ promptsOf document = prompts := by
  unfold promptsOf at hget ⊢
  split at hget
  case h_1 prompts hprompts =>
    cases document with
    | dict entries => exact ⟨entries, prompts, rfl, hprompts, rfl⟩
    | null | bool _ | int _ | float _ | str _ | list _ => cases hprompts
  case h_2 => cases hget

theorem ok_of_livePrompts
    (hlive : Reload.livePrompts (deploy python setup) document path = .ok live)
    {name : CodePoints} {entry : JsonValue}
    (hget : JsonValue.get (promptsOf document) name = some entry) :
    ∃ result, Reload.liveVersion (deploy python setup) path (name, entry) = .ok result := by
  obtain ⟨entries, prompts, rfl, hprompts, heq⟩ := exists_prompts_of_get hget
  rw [heq] at hget
  have htruthy : isTruthy (.dict prompts) = true := by
    cases prompts with
    | nil => cases hget
    | cons prompt prompts => rfl
  unfold Reload.livePrompts at hlive
  simp only [promptsKey] at hprompts
  simp only [hprompts, Option.filter_some_pos htruthy] at hlive
  obtain ⟨results, hmap, -⟩ := Reload.Yaml.bind_eq_ok hlive
  exact ok_of_mapM hmap _ (mem_of_get hget)

theorem isJson_versions {name : CodePoints} {versions : List JsonValue} (hjson : IsJson document)
    (hget : JsonValue.get (promptsOf document) name = some (.list versions)) :
    ∀ version ∈ versions, IsJson version := by
  obtain ⟨entries, prompts, rfl, hprompts, heq⟩ := exists_prompts_of_get hget
  rw [heq] at hget
  have hdict : IsJson (.dict prompts) := isJson_of_mem_dict hjson _ (mem_of_get hprompts)
  have hlist : IsJson (.list versions) := isJson_of_mem_dict hdict _ (mem_of_get hget)
  exact isJson_of_mem_list hlist

end Deploy

/-! ### What the dashboard reads -/

section Reading

variable {string : JsonValue → Text} {room : ℕ} {document : JsonValue} {yaml : Prompts.Yaml}

theorem toChars?_pointsOf (text : Text) : toChars? (pointsOf text) = some text := by
  have hstring := toChars?_ofString (String.ofList text)
  rw [ofString, String.toList_ofList] at hstring
  exact hstring

theorem toChars?_eq_some_iff {points : CodePoints} {text : Text} :
    toChars? points = some text ↔ points = pointsOf text := by
  constructor
  · intro hchars
    exact (map_ofChar_of_toChars? hchars).symm
  · rintro rfl
    exact toChars?_pointsOf text

theorem lookup_yamlOf (prompts : List (CodePoints × JsonValue)) (name : Text) :
    (yamlOf string prompts).lookup name =
      (JsonValue.get prompts (pointsOf name)).map (readVersions string) := by
  rw [yamlOf, AList.lookup_to_alist, JsonValue.get]
  induction prompts.reverse with
  | nil => rfl
  | cons prompt prompts ih =>
      obtain ⟨key, entry⟩ := prompt
      cases hchars : toChars? key with
      | none =>
          have hne : key ≠ pointsOf name := by
            rintro rfl
            rw [toChars?_pointsOf] at hchars
            cases hchars
          rw [List.filterMap_cons_none (by simp [hchars]), ih, List.find?_cons_of_neg (by simpa)]
      | some other =>
          obtain rfl := toChars?_eq_some_iff.mp hchars
          rw [List.filterMap_cons_some (by simp [hchars]; rfl)]
          by_cases hname : name = other
          · subst hname
            rw [List.dlookup_cons_eq, List.find?_cons_of_pos (by simp)]
            rfl
          · have hne : pointsOf other ≠ pointsOf name := by
              intro heq
              have hsame := toChars?_pointsOf other
              rw [heq, toChars?_pointsOf] at hsame
              exact hname (Option.some.inj hsame)
            rw [List.dlookup_cons_ne _ _ hname, ih, List.find?_cons_of_neg (by simpa)]

theorem lookup_of_parseConfig (hconfig : parseConfig string room document = some yaml)
    (name : Text) :
    yaml.lookup name =
      (JsonValue.get (promptsOf document) (pointsOf name)).map (readVersions string) := by
  unfold parseConfig at hconfig
  split_ifs at hconfig with hjson
  cases document with
  | dict entries =>
      have hitem : item (.dict entries) promptsKey = JsonValue.get entries promptsKey := rfl
      cases hprompts : JsonValue.get entries promptsKey with
      | none =>
          simp only [hprompts] at hconfig
          cases hconfig
          rw [promptsOf, hitem, hprompts]
          rfl
      | some value =>
          simp only [hprompts] at hconfig
          cases value with
          | dict prompts =>
              cases hconfig
              rw [promptsOf, hitem, hprompts]
              exact lookup_yamlOf prompts name
          | null | bool _ | int _ | float _ | str _ | list _ => cases hconfig
  | null | bool _ | int _ | float _ | str _ | list _ => cases hconfig

theorem exists_parseConfig_iff {entries : List (CodePoints × JsonValue)} :
    (∃ yaml, parseConfig string room (.dict entries) = some yaml) ↔
      isJson room (.dict entries) ∧ ∀ value, item (.dict entries) promptsKey = some value →
        ∃ prompts, value = .dict prompts := by
  have hitem : item (.dict entries) promptsKey = JsonValue.get entries promptsKey := rfl
  rw [parseConfig, hitem]
  split_ifs with hjson
  · cases hprompts : JsonValue.get entries promptsKey with
    | none => simp [hjson]
    | some value =>
        cases value with
        | dict prompts => simp [hjson]
        | null | bool _ | int _ | float _ | str _ | list _ => simp
  · simp [hjson]

end Reading

/-! ### The version that the dashboard puts first -/

section First

variable {Key : Type*} [LinearOrder Key] {js : Runtime Key} {specs : List StoredPrompt}
  {spec : StoredPrompt}

theorem leads_iff : Leads js specs spec ↔
    ((specs.insertionSort (Before js)).find? StoredPrompt.live = some spec ∨
      (specs.insertionSort (Before js)).find? StoredPrompt.live = none ∧
        (specs.insertionSort (Before js)).find? (fun _ => true) = some spec) := by
  rw [Leads, StableSort.find?_insertionSort_eq_some_iff, StableSort.find?_insertionSort_eq_some_iff,
    List.find?_eq_none]
  simp only [List.mem_insertionSort, Bool.not_eq_true]

/-- The live version of a prompt is the one that leads. -/
theorem live_eq_iff_leads {version : SystemPrompt} :
    (∃ prompt, parsePrompt js specs = some prompt ∧ prompt.live = version) ↔
      ∃ spec, Leads js specs spec ∧ spec.toSystemPrompt = version := by
  simp only [leads_iff]
  rw [parsePrompt]
  cases specs.insertionSort (Before js) with
  | nil => simp
  | cons newest older =>
      cases hfind : (newest :: older).find? StoredPrompt.live with
      | none => simp
      | some found => simp

end First

/-! ### The table -/

section Table

variable {Key : Type*} [LinearOrder Key] {js : Runtime Key} {now name : Text} {yaml : Prompts.Yaml}
  {rows : List Row} {prompt : Prompt}

theorem mapM_isSome_iff {α β : Type*} {f : α → Option β} {items : List α} :
    (∃ results, items.mapM f = some results) ↔ ∀ item ∈ items, (f item).isSome := by
  induction items with
  | nil => simp
  | cons item items ih =>
      rw [List.forall_mem_cons, ← ih, List.mapM_cons]
      cases f item with
      | none => simp
      | some result =>
          cases items.mapM f with
          | none => simp
          | some rest => simp

theorem map_eq_of_mapM {α β γ : Type*} {f : α → Option β} {first : α → γ} {second : β → γ}
    (hsame : ∀ item result, f item = some result → second result = first item) {items : List α}
    {results : List β} (hmap : items.mapM f = some results) :
    results.map second = items.map first := by
  induction items generalizing results with
  | nil =>
      cases hmap
      rfl
  | cons item items ih =>
      rw [List.mapM_cons] at hmap
      obtain ⟨result, hitem, hmap⟩ := Option.bind_eq_some_iff.mp hmap
      obtain ⟨rest, hrest, heq⟩ := Option.bind_eq_some_iff.mp hmap
      cases heq
      rw [List.map_cons, List.map_cons, hsame item result hitem, ih hrest]

theorem mem_newYamlPrompts_iff : (name, prompt) ∈ newYamlPrompts js yaml [] ↔
    name ∉ inherited ∧ ∃ specs, yaml.lookup name = some specs ∧
      parsePrompt js specs = some prompt := by
  rw [newYamlPrompts, List.mem_filterMap]
  constructor
  · rintro ⟨entry, hentry, heq⟩
    split_ifs at heq with hnew
    obtain ⟨parsed, hparsed, hsame⟩ := Option.map_eq_some_iff.mp heq
    cases hsame
    exact ⟨hnew.2, entry.2, AList.mem_lookup_iff.mpr hentry, hparsed⟩
  · rintro ⟨hname, specs, hlookup, hparse⟩
    refine ⟨⟨name, specs⟩, AList.mem_lookup_iff.mp hlookup, ?_⟩
    rw [if_pos ⟨rfl, hname⟩, hparse]
    rfl

/-- each version with its prompt -/
def itemsOf (js : Runtime Key) (yaml : Prompts.Yaml) : List ((Text × Prompt) × SystemPrompt) :=
  (newYamlPrompts js yaml []).flatMap fun item => item.2.versions.map fun version => (item, version)

theorem mem_itemsOf_iff {version : SystemPrompt} :
    ((name, prompt), version) ∈ itemsOf js yaml ↔
      (name, prompt) ∈ newYamlPrompts js yaml [] ∧ version ∈ prompt.versions := by
  rw [itemsOf, List.mem_flatMap]
  constructor
  · rintro ⟨item, hitem, hversion⟩
    obtain ⟨other, hother, heq⟩ := List.mem_map.mp hversion
    cases heq
    exact ⟨hitem, hother⟩
  · rintro ⟨hitem, hversion⟩
    exact ⟨_, hitem, List.mem_map_of_mem hversion⟩

theorem map_key_of_newRows {new : List Row}
    (hnew : newRows js now (newYamlPrompts js yaml []) = some new) :
    new.map Row.key = (itemsOf js yaml).map fun item => (item.1.1, item.2.version) := by
  refine map_eq_of_mapM (fun item row hrow => ?_) hnew
  obtain ⟨hname, hversion, -⟩ := eq_of_newRow hrow
  rw [Row.key, hname, hversion]

theorem nodup_versions_iff {specs : List StoredPrompt}
    (hprompt : parsePrompt js specs = some prompt) :
    (prompt.versions.map fun version => version.version).Nodup ↔
      (specs.map fun spec => spec.version).Nodup := by
  obtain ⟨newest, older, hsorted, hversions, -⟩ := eq_of_parsePrompt hprompt
  rw [hversions, ← hsorted, List.map_map]
  exact ((List.perm_insertionSort (Before js) specs).map _).nodup_iff

theorem pairwise_newYamlPrompts :
    (newYamlPrompts js yaml []).Pairwise fun first second => first.1 ≠ second.1 := by
  refine List.Pairwise.filterMap _ ?_ (List.nodupKeys_iff_pairwise.mp yaml.nodupKeys)
  intro first second hne item hitem other hother
  split_ifs at hitem hother
  obtain ⟨-, -, rfl⟩ := Option.map_eq_some_iff.mp hitem
  obtain ⟨-, -, rfl⟩ := Option.map_eq_some_iff.mp hother
  exact hne

/-- What holds of each prompt that is stored holds of each name with versions, if of no versions. -/
theorem forall_newYamlPrompts_iff {holds : Text → List StoredPrompt → Prop}
    {stored : Text → Prompt → Prop} (hnil : ∀ name, holds name [])
    (hsame : ∀ name specs prompt, parsePrompt js specs = some prompt →
      (stored name prompt ↔ holds name specs)) :
    (∀ item ∈ newYamlPrompts js yaml [], stored item.1 item.2) ↔
      ∀ name specs, yaml.lookup name = some specs → name ∉ inherited → holds name specs := by
  constructor
  · intro hstored name specs hlookup hname
    cases hprompt : parsePrompt js specs with
    | none =>
        rw [parsePrompt_eq_none.mp hprompt]
        exact hnil name
    | some prompt =>
        have hmem := mem_newYamlPrompts_iff.mpr ⟨hname, specs, hlookup, hprompt⟩
        exact (hsame name specs prompt hprompt).mp (hstored _ hmem)
  · rintro hholds ⟨name, prompt⟩ hmem
    obtain ⟨hname, specs, hlookup, hprompt⟩ := mem_newYamlPrompts_iff.mp hmem
    exact (hsame name specs prompt hprompt).mpr (hholds name specs hlookup hname)

/-- The index accepts the versions when those of each prompt differ. -/
theorem nodup_items_iff :
    ((itemsOf js yaml).map fun item => (item.1.1, item.2.version)).Nodup ↔
      ∀ name specs, yaml.lookup name = some specs → name ∉ inherited →
        (specs.map fun spec => spec.version).Nodup := by
  have hkeys (name : Text) (versions : List SystemPrompt) :
      (versions.map fun version => (name, version.version)).Nodup ↔
        (versions.map fun version => version.version).Nodup := by
    have hmap : (versions.map fun version => (name, version.version)) =
        (versions.map fun version => version.version).map (Prod.mk name) := by
      rw [List.map_map]
      rfl
    rw [hmap, List.nodup_map_iff (Prod.mk_right_injective name)]
  rw [itemsOf, List.map_flatMap, List.nodup_flatMap]
  simp only [List.map_map, Function.comp_def, hkeys]
  have hnodup := @forall_newYamlPrompts_iff _ _ js yaml
    (fun _ specs => (specs.map fun spec => spec.version).Nodup)
    (fun _ prompt => (prompt.versions.map fun version => version.version).Nodup)
    (fun _ => List.nodup_nil) fun _ _ _ hprompt => nodup_versions_iff hprompt
  rw [← hnodup]
  refine and_iff_left_of_imp fun _ => pairwise_newYamlPrompts.imp ?_
  intro first second hne
  rw [Function.onFun, List.disjoint_left]
  intro key hfirst hsecond
  obtain ⟨_, -, rfl⟩ := List.mem_map.mp hfirst
  obtain ⟨_, -, heq⟩ := List.mem_map.mp hsecond
  exact hne (congrArg Prod.fst heq).symm

omit [LinearOrder Key] in
theorem newRow_isSome_iff {version : SystemPrompt} :
    (newRow js now name prompt version).isSome ↔
      ∀ date, version.updatedAt = some date → date ≠ [] → (js.isoDate date).isSome := by
  rw [newRow, Option.isSome_map]
  cases hdate : version.updatedAt with
  | none => simp
  | some date => by_cases hempty : date = [] <;> simp [hempty, Option.filter]

/-- The table's texts of a version. -/
def isStorableVersion (item : (Text × Prompt) × SystemPrompt) : Bool :=
  isText item.1.1 && isText item.2.version && isText item.2.content

theorem all_isStorable_iff {new : List Row}
    (hnew : newRows js now (newYamlPrompts js yaml []) = some new) :
    new.all isStorable = true ↔ ∀ item ∈ itemsOf js yaml, isStorableVersion item = true := by
  have hmap : new.map isStorable = (itemsOf js yaml).map isStorableVersion := by
    refine map_eq_of_mapM (fun item row hrow => ?_) hnew
    obtain ⟨createdAt, -, rfl⟩ := Option.map_eq_some_iff.mp hrow
    rfl
  have hall (items : List Bool) : items.all id = true ↔ ∀ item ∈ items, item = true := by
    rw [List.all_eq_true]
    rfl
  have hrows : new.all isStorable = (new.map isStorable).all id := by
    rw [List.all_map]
    rfl
  rw [hrows, hmap, hall, List.forall_mem_map]

omit [LinearOrder Key] in
theorem storable_iff {spec : StoredPrompt} : Storable js name spec ↔
    (newRow js now name prompt spec.toSystemPrompt).isSome ∧
      isStorableVersion ((name, prompt), spec.toSystemPrompt) = true := by
  rw [Storable, newRow_isSome_iff, isStorableVersion, Bool.and_eq_true, Bool.and_eq_true, and_assoc]

/-- Of each prompt that is stored all versions can be. -/
theorem forall_itemsOf_iff :
    (∀ item ∈ itemsOf js yaml, (newRow js now item.1.1 item.1.2 item.2).isSome ∧
      isStorableVersion item = true) ↔
      ∀ name specs, yaml.lookup name = some specs → name ∉ inherited →
        ∀ spec ∈ specs, Storable js name spec := by
  have hversions := @forall_newYamlPrompts_iff _ _ js yaml
    (fun name specs => ∀ spec ∈ specs, Storable js name spec)
    (fun name prompt => ∀ version ∈ prompt.versions,
      (newRow js now name prompt version).isSome ∧
        isStorableVersion ((name, prompt), version) = true)
    (fun name => List.forall_mem_nil _) fun name specs prompt hprompt => ?_
  · rw [← hversions]
    constructor
    · rintro hitems ⟨name, prompt⟩ hitem version hversion
      exact hitems _ (mem_itemsOf_iff.mpr ⟨hitem, hversion⟩)
    · rintro hprompts ⟨⟨name, prompt⟩, version⟩ hmem
      obtain ⟨hitem, hversion⟩ := mem_itemsOf_iff.mp hmem
      exact hprompts _ hitem version hversion
  · constructor
    · intro hstored spec hspec
      exact storable_iff.mpr (hstored _ ((mem_versions_iff hprompt).mpr ⟨spec, hspec, rfl⟩))
    · intro hspecs version hversion
      obtain ⟨spec, hspec, rfl⟩ := (mem_versions_iff hprompt).mp hversion
      exact storable_iff.mp (hspecs spec hspec)

theorem apply_eq_some_iff :
    Change.apply js now [] (.storeNewYamlPrompts yaml) = some rows ↔
      newRows js now (newYamlPrompts js yaml []) = some rows ∧ (rows.map Row.key).Nodup := by
  rw [Change.apply, Option.bind_eq_bind, Option.bind_eq_some_iff]
  simp only [insertSystemPrompts, List.nil_append, Option.ite_none_right_eq_some, Option.some_inj]
  constructor
  · rintro ⟨new, hnew, hnodup, rfl⟩
    exact ⟨hnew, hnodup⟩
  · rintro ⟨hnew, hnodup⟩
    exact ⟨rows, hnew, hnodup, rfl⟩

/-- The table takes the prompts when each version can be stored and those of a prompt differ. -/
theorem exists_rows_iff :
    (∃ rows, Change.apply js now [] (.storeNewYamlPrompts yaml) = some rows ∧
      rows.all isStorable = true) ↔
    ∀ name specs, yaml.lookup name = some specs → name ∉ inherited →
      (∀ spec ∈ specs, Storable js name spec) ∧ (specs.map fun spec => spec.version).Nodup := by
  simp only [apply_eq_some_iff]
  constructor
  · rintro ⟨rows, ⟨hnew, hnodup⟩, hall⟩ name specs hlookup hname
    have hrows : ∀ item ∈ itemsOf js yaml, (newRow js now item.1.1 item.1.2 item.2).isSome :=
      mapM_isSome_iff.mp ⟨rows, hnew⟩
    rw [map_key_of_newRows hnew] at hnodup
    refine ⟨forall_itemsOf_iff.mp (fun item hitem => ⟨hrows item hitem, ?_⟩) name specs hlookup
      hname, nodup_items_iff.mp hnodup name specs hlookup hname⟩
    exact (all_isStorable_iff hnew).mp hall item hitem
  · intro hstorable
    have hitems := (@forall_itemsOf_iff _ _ js now yaml).mpr
      fun name specs hlookup hname => (hstorable name specs hlookup hname).1
    obtain ⟨rows, hnew⟩ : ∃ rows, newRows js now (newYamlPrompts js yaml []) = some rows :=
      mapM_isSome_iff.mpr fun item hitem => (hitems item hitem).1
    refine ⟨rows, ⟨hnew, ?_⟩, (all_isStorable_iff hnew).mpr fun item hitem => (hitems item hitem).2⟩
    rw [map_key_of_newRows hnew]
    exact nodup_items_iff.mpr fun name specs hlookup hname => (hstorable name specs hlookup hname).2

theorem published_of_mem
    (happly : Change.apply js now [] (.storeNewYamlPrompts yaml) = some rows)
    (hmem : (name, prompt) ∈ newYamlPrompts js yaml []) :
    ∃ published, livePrompts js rows name = some published ∧
      published.version = prompt.live.version ∧ published.content = prompt.live.content := by
  have hempty : Consistent [] := ⟨List.nodup_nil, List.forall_mem_nil _⟩
  have hconsistent := consistent_storeNewYamlPrompts hempty happly
  obtain ⟨-, specs, -, hprompt⟩ := mem_newYamlPrompts_iff.mp hmem
  have hitem := mem_itemsOf_iff.mpr ⟨hmem, live_mem_versions hprompt⟩
  obtain ⟨row, hrow, heq⟩ := (mem_of_mapM (apply_eq_some_iff.mp happly).1).2 _ hitem
  obtain ⟨createdAt, -, rfl⟩ := Option.map_eq_some_iff.mp heq
  have hflag : decide (prompt.live.version = prompt.live.version) = true := decide_eq_true rfl
  obtain ⟨live, -, -, -, honly⟩ := hconsistent.live _ hrow
  obtain rfl := honly _ hrow rfl hflag
  exact ⟨_, livePrompts_eq hrow hflag honly, rfl, rfl⟩

theorem published_eq_none
    (happly : Change.apply js now [] (.storeNewYamlPrompts yaml) = some rows)
    (hnone : ∀ prompt, (name, prompt) ∉ newYamlPrompts js yaml []) :
    livePrompts js rows name = none := by
  rw [livePrompts_eq_none_iff]
  rintro row hrow rfl
  obtain ⟨⟨⟨name, prompt⟩, version⟩, hitem, heq⟩ :=
    (mem_of_mapM (apply_eq_some_iff.mp happly).1).1 row hrow
  obtain ⟨rfl, -⟩ := eq_of_newRow heq
  exact hnone prompt (mem_itemsOf_iff.mp hitem).1

end Table

/-! ### Both -/

section Both

variable {python : Interpreter} {string : JsonValue → Text} {Key : Type*} [LinearOrder Key]
  {js : Runtime Key} {room : ℕ} {now : Text} {setup : Reload.Setup} {path : CodePoints}
  {document live : JsonValue}

theorem sameAs_iff_of_eq {version : JsonValue} {first second : SystemPrompt}
    (hversion : first.version = second.version) (hcontent : first.content = second.content) :
    SameAs python version first ↔ SameAs python version second := by
  rw [SameAs, SameAs, hversion, hcontent]

theorem isDict_of_livePrompts (hlive : Reload.livePrompts setup document path = .ok live) :
    ∃ entries, document = .dict entries := by
  cases document with
  | dict entries => exact ⟨entries, rfl⟩
  | null | bool _ | int _ | float _ | str _ | list _ => cases hlive

/-- The version of a prompt of the document that is published, if the prompts are stored. -/
theorem published_eq_some_iff {yaml : Prompts.Yaml} {rows : List Row} {name : Text}
    (hconfig : parseConfig string room document = some yaml)
    (happly : Change.apply js now [] (.storeNewYamlPrompts yaml) = some rows)
    {version : JsonValue} :
    (∃ published, livePrompts js rows name = some published ∧ SameAs python version published) ↔
      name ∉ inherited ∧ ∃ entry, JsonValue.get (promptsOf document) (pointsOf name) = some entry ∧
        ∃ spec, Leads js (readVersions string entry) spec ∧
          SameAs python version spec.toSystemPrompt := by
  have hlookup := lookup_of_parseConfig hconfig name
  constructor
  · rintro ⟨published, hpublished, hsame⟩
    obtain ⟨prompt, hmem⟩ : ∃ prompt, (name, prompt) ∈ newYamlPrompts js yaml [] := by
      by_contra hnone
      push Not at hnone
      rw [published_eq_none happly hnone] at hpublished
      cases hpublished
    obtain ⟨hname, specs, hspecs, hprompt⟩ := mem_newYamlPrompts_iff.mp hmem
    rw [hspecs] at hlookup
    obtain ⟨entry, hget, rfl⟩ := Option.map_eq_some_iff.mp hlookup.symm
    obtain ⟨spec, hleads, heq⟩ := live_eq_iff_leads.mp ⟨prompt, hprompt, rfl⟩
    obtain ⟨other, hother, hversion, hcontent⟩ := published_of_mem happly hmem
    cases hpublished.symm.trans hother
    refine ⟨hname, entry, hget, spec, hleads, ?_⟩
    rw [heq]
    exact (sameAs_iff_of_eq hversion hcontent).mp hsame
  · rintro ⟨hname, entry, hget, spec, hleads, hsame⟩
    obtain ⟨prompt, hprompt, heq⟩ := live_eq_iff_leads.mpr ⟨spec, hleads, rfl⟩
    rw [hget] at hlookup
    have hmem := mem_newYamlPrompts_iff.mpr ⟨hname, _, hlookup, hprompt⟩
    obtain ⟨published, hpublished, hversion, hcontent⟩ := published_of_mem happly hmem
    refine ⟨published, hpublished, (sameAs_iff_of_eq hversion hcontent).mpr ?_⟩
    rw [heq]
    exact hsame

theorem holdsWhen_of_agrees
    (hlive : Reload.livePrompts (deploy python setup) document path = .ok live)
    (hagrees : Agrees python string js room now setup path document) :
    HoldsWhen python string js room document := by
  obtain ⟨entries, rfl⟩ := isDict_of_livePrompts hlive
  obtain ⟨published, hload, hsame⟩ := hagrees
  obtain ⟨yaml, hconfig, hload⟩ := Option.bind_eq_some_iff.mp hload
  obtain ⟨rows, happly, hload⟩ := Option.bind_eq_some_iff.mp hload
  obtain ⟨hall, heq⟩ := Option.ite_none_right_eq_some.mp hload
  cases heq
  have hjson := (exists_parseConfig_iff.mp ⟨yaml, hconfig⟩).1
  refine ⟨exists_parseConfig_iff.mp ⟨yaml, hconfig⟩, ?_, ?_⟩
  · intro name entry hget hname
    refine exists_rows_iff.mp ⟨rows, happly, hall⟩ name _ ?_ hname
    rw [lookup_of_parseConfig hconfig, hget]
    rfl
  · intro name versions hget hne
    obtain ⟨result, hresult⟩ := ok_of_livePrompts hlive hget
    obtain ⟨_, heq, ⟨rfl, -⟩ | ⟨-, version, hmax, rfl⟩⟩ := maxVersion_of_liveVersion hresult
    · cases heq
      exact absurd rfl hne
    cases heq
    have hchosen := chosen_of_maxVersion (isJson_versions ⟨room, hjson⟩ hget) hmax
    obtain ⟨text, prompt, rfl, hprompt, hsame⟩ := hsame name _ version hget hresult
    obtain ⟨hname, entry, hentry, spec, hleads, hspec⟩ :=
      (published_eq_some_iff hconfig happly).mp ⟨prompt, hprompt, hsame⟩
    cases hget.symm.trans hentry
    exact ⟨text, version, spec, rfl, hname, hchosen, hleads, hspec⟩

theorem agrees_of_holdsWhen
    (hlive : Reload.livePrompts (deploy python setup) document path = .ok live)
    (hholds : HoldsWhen python string js room document) :
    Agrees python string js room now setup path document := by
  obtain ⟨entries, rfl⟩ := isDict_of_livePrompts hlive
  obtain ⟨hjson, hstorable, hfirst⟩ := hholds
  obtain ⟨yaml, hconfig⟩ := exists_parseConfig_iff.mpr hjson
  obtain ⟨rows, happly, hall⟩ : ∃ rows,
      Change.apply js now [] (.storeNewYamlPrompts yaml) = some rows ∧
        rows.all isStorable = true := by
    refine exists_rows_iff.mpr fun name specs hlookup hname => ?_
    rw [lookup_of_parseConfig hconfig] at hlookup
    obtain ⟨entry, hget, rfl⟩ := Option.map_eq_some_iff.mp hlookup
    exact hstorable name entry hget hname
  have hload : loadPrompts string js room now (.dict entries) = some (livePrompts js rows) := by
    rw [loadPrompts, hconfig, Option.bind_eq_bind, Option.bind_some, happly, Option.bind_eq_bind,
      Option.bind_some, if_pos hall]
  refine ⟨_, hload, fun name entry version hget hversion => ?_⟩
  obtain ⟨versions, rfl, ⟨-, heq⟩ | ⟨hne, _, hmax, heq⟩⟩ := maxVersion_of_liveVersion hversion
  · cases heq
  cases heq
  have hchosen := chosen_of_maxVersion (isJson_versions ⟨room, hjson.1⟩ hget) hmax
  obtain ⟨text, other, spec, rfl, hname, hother, hleads, hspec⟩ := hfirst name versions hget hne
  obtain rfl := hchosen.unique hother
  obtain ⟨prompt, hprompt, hsame⟩ := (published_eq_some_iff hconfig happly).mpr
    ⟨hname, _, hget, spec, hleads, hspec⟩
  exact ⟨text, prompt, rfl, hprompt, hsame⟩

end Both

/-! ### Two documents -/

theorem texts_of_isGreater {first second : JsonValue} {greater : Bool}
    (hgreater : isGreater (fun _ _ => none) first second = some greater) :
    ∃ text other, first = .str text ∧ second = .str other ∧ decide (other < text) = greater := by
  cases first with
  | str text =>
      cases second with
      | str other => exact ⟨text, other, rfl, rfl, Option.some.inj hgreater⟩
      | null | bool _ | int _ | float _ | list _ | dict _ => cases hgreater
  | null | bool _ | int _ | float _ | list _ | dict _ => cases hgreater

/-- What `python` does on the values of these documents. -/
def python : Interpreter where
  str _ := []
  decimal char := ((toChar? char).filter Char.isDigit).map fun digit => digit.toNat - 48
  others _ _ := none
  asymm first second _ _ hgreater := by
    obtain ⟨text, other, rfl, rfl, hless⟩ := texts_of_isGreater hgreater
    have hle : ¬ text < other := (of_decide_eq_true hless).asymm
    exact congrArg some (decide_eq_false hle)
  trans first second third _ _ _ hgreater hbehind := by
    obtain ⟨text, other, rfl, rfl, hless⟩ := texts_of_isGreater hgreater
    obtain ⟨third, _, rfl, heq, hle⟩ := texts_of_isGreater hbehind
    cases heq
    have hle : third ≤ other := not_lt.mp (of_decide_eq_false hle)
    have hlt : third < text := hle.trans_lt (of_decide_eq_true hless)
    exact congrArg some (decide_eq_true hlt)

def versionOf (version content : String) : JsonValue :=
  .dict [(versionKey, .str (ofString version)), (contentKey, .str (ofString content))]

def parseVersions : List JsonValue :=
  [versionOf "intent-v9" "hi", versionOf "intent-v10" "hello"]

def secondVersion : StoredPrompt :=
  ⟨⟨"intent-v10".toList, "hello".toList, none⟩, false⟩

def document : JsonValue :=
  .dict [(promptsKey, .dict [(pointsOf parseName, .list parseVersions)])]

def prompts : CodePoints :=
  ofString "config/prompts.yaml"

theorem eq_of_get_document {name : CodePoints} {entry : JsonValue}
    (hget : JsonValue.get (promptsOf document) name = some entry) :
    name = pointsOf parseName ∧ entry = .list parseVersions := by
  have hmem : (name, entry) ∈ [(pointsOf parseName, JsonValue.list parseVersions)] :=
    mem_of_get hget
  obtain heq := List.mem_singleton.mp hmem
  cases heq
  exact ⟨rfl, rfl⟩

theorem livePrompts_document : Reload.livePrompts (deploy python Reload.laptop) document prompts =
    .ok (.dict [(pointsOf parseName, versionOf "intent-v10" "hello")]) := by
  rfl

/-- `prompts:` with nothing after it -/
def bare : JsonValue :=
  .dict [(promptsKey, .null)]

end CanyonOS.Handover
