import CanyonOS.Controller.Reload
import CanyonOS.Gateway.Proxy

/-!
# The system prompt of a call

The deploy publishes the live version of each prompt in prompts.yaml, and the gateway writes the one
of the calling function into the body of an LLM call, where the provider takes a system prompt.
-/

namespace CanyonOS.SystemPrompt

open CodePoints JsonValue Gateway.Proxy

/-! ### The interpreter -/

/-- Whether the value nests no deeper than `room`, and has only floats that are accepted. -/
def within (accepts : FloatValue → Bool) : ℕ → JsonValue → Bool
  | _, .null | _, .bool _ | _, .int _ | _, .str _ => true
  | _, .float value => accepts value
  | 0, .list _ | 0, .dict _ => false
  | room + 1, .list items => items.all (within accepts room)
  | room + 1, .dict entries => entries.all fun entry => within accepts room entry.2

/-- Whether the stack has room for a walk through the value. -/
def fits : ℕ → JsonValue → Bool :=
  within fun _ => true

def isFinite : FloatValue → Bool
  | .finite _ => true
  | .infinity _ | .nan => false

/-- Whether `json.dumps` writes the value as valid JSON, which has no word for the other floats. -/
def isJson : ℕ → JsonValue → Bool :=
  within isFinite

structure Interpreter where
  /-- how it prints a value that is no text -/
  repr : JsonValue → CodePoints
  /-- the nesting for which `str` and `json.dumps` have room -/
  strRoom : ℕ
  dumpsRoom : ℕ

/-- `str(value)` -/
def Interpreter.str (python : Interpreter) (value : JsonValue) : Option CodePoints :=
  match value with
  | .str text => some text
  | value => if fits python.strRoom value then some (python.repr value) else none

/-! ### The live prompts -/

def promptsKey : CodePoints :=
  ofString "prompts"

/-- `_current_by_name`, after what `prompts:config` holds was read. -/
def refreshPrompts (last : JsonValue) (config : Option JsonValue) : JsonValue :=
  match config with
  | none => .dict []
  | some (.dict config) => ((JsonValue.get config promptsKey).filter isTruthy).getD (.dict [])
  | some _ => last

/-- What the deploy leaves under `prompts:config`; nothing where it refuses prompts.yaml. -/
def published (setup : Reload.Setup) (document : JsonValue) (path : CodePoints) :
    Option JsonValue :=
  match Reload.livePrompts setup document path with
  | .ok live => some (.dict [(promptsKey, live)])
  | .error _ => none

/-! ### Setting the prompt -/

def contentKey : CodePoints :=
  ofString "content"

def textKey : CodePoints :=
  ofString "text"

def messagesKey : CodePoints :=
  ofString "messages"

def promptMessage (text : JsonValue) : JsonValue :=
  .dict [(ofString "role", .str (ofString "system")), (contentKey, text)]

def openaiSetSystem (params : Params) (subpath : CodePoints) (text : JsonValue) :
    Option (Option Params) :=
  if endsWith subpath "responses" then some (some (put params (ofString "instructions") text))
  else if endsWith subpath "chat/completions" then
    let messages := ((JsonValue.get params messagesKey).filter isTruthy).getD (.list [])
    (withoutRoles ["system", "developer"] messages).map fun rest =>
      some (put params messagesKey (.list (promptMessage text :: rest)))
  else some none

def anthropicSetSystem (params : Params) (subpath : CodePoints) (text : JsonValue) :
    Option (Option Params) :=
  if endsWith subpath "messages" then some (some (put params (ofString "system") text))
  else some none

section Apply

variable (python : Interpreter)

/-- `f"{text}\n\n{params[key]}"` -/
def headed (text value : JsonValue) : Option JsonValue :=
  (python.str text).bind fun text =>
    (python.str value).map fun value => .str (text ++ ofString "\n\n" ++ value)

def bedrockSetSystem (params : Params) (subpath : CodePoints) (text : JsonValue) :
    Option (Option Params) :=
  (parse subpath).bind fun (model, op) =>
    if op ∈ converseOps ∨ contains model "amazon.nova" then
      some (some (put params (ofString "system") (.list [.dict [(textKey, text)]])))
    else if contains model "anthropic." then some (some (put params (ofString "system") text))
    else if contains model "cohere.command-r" then
      some (some (put params (ofString "preamble") text))
    else match JsonValue.get params messagesKey with
      | some messages =>
          (withoutRoles ["system"] messages).map fun rest =>
            some (put params messagesKey (.list (promptMessage text :: rest)))
      | none =>
          match JsonValue.get params (ofString "prompt") with
          | some value =>
              (headed python text value).map fun value =>
                some (put params (ofString "prompt") value)
          | none =>
              match JsonValue.get params (ofString "inputText") with
              | some value =>
                  (headed python text value).map fun value =>
                    some (put params (ofString "inputText") value)
              | none => some none

/-- `set_system`: the parameters it leaves, or that there is no place for a prompt; `none` where it
raises. -/
def setSystem : Provider → Params → CodePoints → JsonValue → Option (Option Params)
  | .openai => openaiSetSystem
  | .anthropic => anthropicSetSystem
  | .bedrock => bedrockSetSystem python

/-- `current[key]` -/
def item (current : JsonValue) (key : CodePoints) : Option JsonValue :=
  match current with
  | .dict entries => JsonValue.get entries key
  | _ => none

def versionKey : CodePoints :=
  ofString "version"

def notNone : JsonValue → Bool
  | .null => false
  | _ => true

/-- `apply` once the body was read as an object. -/
def applyTo (provider : Provider) (current : JsonValue) (subpath : CodePoints) (params : Params) :
    Option (Option (Params × CodePoints)) :=
  (item current contentKey).bind fun content =>
    (setSystem python provider params subpath content).bind fun placed =>
      match placed with
      | none => some none
      | some params =>
          if fits python.dumpsRoom (.dict params) then
            (item current versionKey).bind fun version =>
              (python.str version).map fun version => some (params, version)
          else none

/-- The body that `json.dumps` writes and the version, `some none` for the very same body and no
version; `none` where it raises. An empty body is one that is no JSON. -/
def apply (currentByName : JsonValue) (provider : Provider) (name subpath : CodePoints)
    (body : Body) : Option (Option (Params × CodePoints)) :=
  match currentByName with
  | .dict prompts =>
      match (JsonValue.get prompts name).filter notNone, body with
      | none, _ | some _, .unreadable .valueError _ => some none
      | some _, .unreadable .recursionError _ => none
      | some current, .json (.dict params) => applyTo python provider current subpath params
      | some _, .json _ => some none
  | _ => none

end Apply

/-! ### Where a request holds its system prompt -/

inductive Place where
  /-- a parameter of its own -/
  | field (key : String)
  /-- a list of text blocks -/
  | blocks (key : String)
  /-- messages, of which those with these roles are replaced -/
  | messages (held : JsonValue) (replaced : List String)
  /-- the head of a text -/
  | head (key : String)

namespace Place

def key : Place → CodePoints
  | field key | blocks key | head key => ofString key
  | messages _ _ => messagesKey

end Place

def openaiPlace (subpath : CodePoints) (params : Params) : Option Place :=
  if endsWith subpath "responses" then some (.field "instructions")
  else if endsWith subpath "chat/completions" then
    some (.messages (((JsonValue.get params messagesKey).filter isTruthy).getD (.list []))
      ["system", "developer"])
  else none

def anthropicPlace (subpath : CodePoints) : Option Place :=
  if endsWith subpath "messages" then some (.field "system") else none

def bedrockPlace (model op : CodePoints) (params : Params) : Option Place :=
  if op ∈ converseOps ∨ contains model "amazon.nova" then some (.blocks "system")
  else if contains model "anthropic." then some (.field "system")
  else if contains model "cohere.command-r" then some (.field "preamble")
  else match JsonValue.get params messagesKey with
    | some messages => some (.messages messages ["system"])
    | none =>
        match JsonValue.get params (ofString "prompt"),
            JsonValue.get params (ofString "inputText") with
        | some _, _ => some (.head "prompt")
        | none, some _ => some (.head "inputText")
        | none, none => none

def placeOf (provider : Provider) (subpath : CodePoints) (params : Params) : Option Place :=
  match provider with
  | .openai => openaiPlace subpath params
  | .anthropic => anthropicPlace subpath
  | .bedrock => (parse subpath).bind fun (model, op) => bedrockPlace model op params

/-- The gateway refuses a call of Bedrock with another operation. -/
def Supports (provider : Provider) (subpath : CodePoints) : Prop :=
  provider = .bedrock → (parse subpath).isSome

/-! ### The claim -/

def messagesOf : JsonValue → Option (List JsonValue)
  | .list messages => some messages
  | .str [] | .dict [] => some []
  | _ => none

def hasRole (roles : List String) (message : JsonValue) : Bool :=
  match role message with
  | some (some (.str role)) => role ∈ roles.map ofString
  | _ => false

def isSystem : JsonValue → Bool :=
  hasRole ["system", "developer"]

/-- The messages that hold no system text. -/
def conversation (held : JsonValue) : List JsonValue :=
  ((messagesOf held).getD []).filter fun message => !isSystem message

namespace Place

/-- The value at the place holds the content once, no other system text, and all else it held. -/
def Carries (place : Place) (params : Params) (content value : JsonValue) : Prop :=
  match place with
  | field _ => value = content
  | blocks _ => value = .list [.dict [(textKey, content)]]
  | messages held _ => value = .list (promptMessage content :: conversation held)
  | head key => ∃ text old, content = .str text ∧
      JsonValue.get params (ofString key) = some (.str old) ∧
        value = .str (text ++ ofString "\n\n" ++ old)

/-- The parameters are the others with the content at the place. -/
def Replaced (place : Place) (params : Params) (content : JsonValue) (others : Params) : Prop :=
  (∀ other, other ≠ place.key → JsonValue.get others other = JsonValue.get params other) ∧
    ∃ value, JsonValue.get others place.key = some value ∧ place.Carries params content value

end Place

section Claim

variable (python : Interpreter)

/-- The live version of a prompt. -/
def live (currentByName : JsonValue) (name : CodePoints) : Option JsonValue :=
  (item currentByName name).filter notNone

/-- Nothing is raised, and either nothing is changed or only the system prompt is. -/
def SetsOnlyThePrompt (currentByName : JsonValue) (provider : Provider)
    (name subpath : CodePoints) (body : Body) : Prop :=
  match apply python currentByName provider name subpath body with
  | none => False
  | some none => True
  | some (some (others, version)) =>
      isJson python.dumpsRoom (.dict others) ∧
        ∃ params current content number place, body = .json (.dict params) ∧
          live currentByName name = some current ∧ item current contentKey = some content ∧
            item current versionKey = some number ∧ python.str number = some version ∧
              placeOf provider subpath params = some place ∧ place.Replaced params content others

/-- What is not replaced and what is put there can be written as JSON; the messages are objects, of
which those with system text are the replaced ones; a head is put before a text, and is one. -/
def Place.Fits (place : Place) (params : Params) (content : JsonValue) : Prop :=
  isJson python.dumpsRoom (.dict (params.filter fun entry => entry.1 ≠ place.key)) ∧
    match place with
    | .field _ => isJson python.dumpsRoom (.dict [(place.key, content)])
    | .blocks _ =>
        isJson python.dumpsRoom (.dict [(place.key, .list [.dict [(textKey, content)]])])
    | .messages held replaced =>
        (∃ messages, messagesOf held = some messages ∧ ∀ message ∈ messages,
          (role message).isSome ∧ hasRole replaced message = isSystem message) ∧
        isJson python.dumpsRoom (.dict [(messagesKey, .list [promptMessage content])]) ∧
          isJson python.dumpsRoom (.dict [(messagesKey, .list (conversation held))])
    | .head key =>
        (∃ text, content = .str text) ∧ ∃ old, JsonValue.get params (ofString key) = some (.str old)

/-- A call with a prompt has a body that does not nest too deep; where it is an object, the live
version has content, and where there is a place for it also a version that can be printed. -/
def HoldsWhen (currentByName : JsonValue) (provider : Provider) (name subpath : CodePoints)
    (body : Body) : Prop :=
  match live currentByName name, body with
  | none, _ | some _, .unreadable .valueError _ => True
  | some _, .unreadable .recursionError _ => False
  | some current, .json (.dict params) =>
      ∃ content, item current contentKey = some content ∧
        ∀ place, placeOf provider subpath params = some place →
          (∃ number, item current versionKey = some number ∧ (python.str number).isSome) ∧
            place.Fits python params content
  | some _, .json _ => True

end Claim

/-! ### What is written -/

section Writing

variable {accepts : FloatValue → Bool} {room : ℕ}

theorem fits_of_isJson {value : JsonValue} (hjson : isJson room value = true) :
    fits room value = true := by
  induction room generalizing value with
  | zero => cases value <;> first | rfl | exact hjson
  | succ room ih =>
      cases value with
      | null | bool _ | int _ | str _ | float _ => rfl
      | list items =>
          exact List.all_eq_true.mpr fun value hmem => ih (List.all_eq_true.mp hjson value hmem)
      | dict entries =>
          exact List.all_eq_true.mpr fun entry hmem => ih (List.all_eq_true.mp hjson entry hmem)

theorem mem_put {params : Params} {key : CodePoints} {value : JsonValue}
    {entry : CodePoints × JsonValue} :
    entry ∈ put params key value ↔
      entry ∈ params.filter (fun entry => entry.1 ≠ key) ∨ entry = (key, value) := by
  rw [put, List.mem_filter, decide_eq_true_eq]
  split_ifs with hkey
  · obtain ⟨old, hold⟩ := Option.isSome_iff_exists.mp hkey
    rw [List.mem_map]
    constructor
    · rintro ⟨other, hother, rfl⟩
      split_ifs with heq
      · exact .inr rfl
      · exact .inl ⟨hother, heq⟩
    · rintro (⟨hentry, hne⟩ | rfl)
      · exact ⟨entry, hentry, if_neg hne⟩
      · exact ⟨(key, old), mem_of_get hold, if_pos rfl⟩
  · have habsent (hentry : entry ∈ params) : entry.1 ≠ key := by
      rintro rfl
      exact hkey (isSome_get hentry)
    rw [List.mem_append, List.mem_singleton]
    exact or_congr_left ⟨fun hentry => ⟨hentry, habsent hentry⟩, And.left⟩

theorem within_put (params : Params) (key : CodePoints) (value : JsonValue) :
    within accepts room (.dict (put params key value)) =
      (within accepts room (.dict (params.filter fun entry => entry.1 ≠ key)) &&
        within accepts room (.dict [(key, value)])) := by
  cases room with
  | zero => rfl
  | succ room =>
      rw [Bool.eq_iff_iff, Bool.and_eq_true, within, within, within, List.all_eq_true,
        List.all_eq_true, List.all_eq_true]
      simp only [mem_put, or_imp, forall_and, List.mem_singleton]

theorem within_messages (key : CodePoints) (message : JsonValue) (messages : List JsonValue) :
    within accepts room (.dict [(key, .list (message :: messages))]) =
      (within accepts room (.dict [(key, .list [message])]) &&
        within accepts room (.dict [(key, .list messages)])) := by
  match room with
  | 0 | 1 => rfl
  | room + 2 => simp [within]

theorem isJson_text {params : Params} (hjson : isJson room (.dict params) = true)
    (key text : CodePoints) : isJson room (.dict [(key, .str text)]) = true := by
  cases room with
  | zero => exact hjson
  | succ room => cases room <;> rfl

end Writing

/-! ### Setting the prompt at its place -/

theorem withoutRoles_list (roles : List String) (messages : List JsonValue) :
    withoutRoles roles (.list messages) = messages.filterMapM fun message =>
      (role message).map fun _ => if hasRole roles message then none else some message := by
  change messages.filterMapM _ = _
  congr
  funext message
  unfold hasRole
  cases role message with
  | none => rfl
  | some value => rcases value with - | (- | - | - | - | - | - | -) <;> rfl

theorem filterMapM_eq (roles : List String) (messages : List JsonValue) :
    (messages.filterMapM fun message =>
      (role message).map fun _ => if hasRole roles message then none else some message) =
        if ∀ message ∈ messages, (role message).isSome then
          some (messages.filter fun message => !hasRole roles message)
        else none := by
  induction messages with
  | nil => simp
  | cons message messages ih =>
      rw [List.filterMapM_cons, ih]
      cases hrole : role message with
      | none => simp [hrole]
      | some value =>
          cases hdropped : hasRole roles message with
          | true => simp [hrole, hdropped]
          | false =>
              by_cases hall : ∀ message ∈ messages, (role message).isSome
              · rw [if_pos hall]
                simpa [hrole, hdropped, Option.isSome_iff_ne_none] using hall
              · rw [if_neg hall]
                simpa [hrole] using hall

theorem withoutRoles_empty {roles : List String} {rest : List JsonValue} :
    some ([] : List JsonValue) = some rest ↔
      ∃ messages, some [] = some messages ∧ (∀ message ∈ messages, (role message).isSome) ∧
        rest = messages.filter fun message => !hasRole roles message := by
  constructor
  · intro hrest
    exact ⟨[], rfl, List.forall_mem_nil _, (Option.some.inj hrest).symm⟩
  · rintro ⟨messages, hmessages, -, rfl⟩
    cases hmessages
    rfl

theorem withoutRoles_eq_some_iff {roles : List String} {held : JsonValue}
    {rest : List JsonValue} :
    withoutRoles roles held = some rest ↔
      ∃ messages, messagesOf held = some messages ∧
        (∀ message ∈ messages, (role message).isSome) ∧
          rest = messages.filter fun message => !hasRole roles message := by
  cases held with
  | list messages =>
      rw [withoutRoles_list, filterMapM_eq, Option.ite_none_right_eq_some, Option.some_inj]
      constructor
      · rintro ⟨hroles, rfl⟩
        exact ⟨messages, rfl, hroles, rfl⟩
      · rintro ⟨_, hmessages, hroles, rfl⟩
        cases hmessages
        exact ⟨hroles, rfl⟩
  | str text =>
      cases text with
      | nil => exact withoutRoles_empty
      | cons char text => exact ⟨nofun, nofun⟩
  | dict entries =>
      cases entries with
      | nil => exact withoutRoles_empty
      | cons entry entries => exact ⟨nofun, nofun⟩
  | null | bool _ | int _ | float _ => exact ⟨nofun, nofun⟩

namespace Place

variable (python : Interpreter)

/-- The value that `set_system` puts at the place. -/
def value (place : Place) (params : Params) (content : JsonValue) : Option JsonValue :=
  match place with
  | field _ => some content
  | blocks _ => some (.list [.dict [(textKey, content)]])
  | messages held replaced =>
      (withoutRoles replaced held).map fun rest => .list (promptMessage content :: rest)
  | head key => (JsonValue.get params (ofString key)).bind (headed python content)

end Place

section Claim

variable {python : Interpreter} {provider : Provider} {name subpath : CodePoints}
  {params : Params} {content : JsonValue}

theorem setSystem_eq (hsupported : Supports provider subpath) :
    setSystem python provider params subpath content =
      match placeOf provider subpath params with
      | none => some none
      | some place =>
          (place.value python params content).map fun value =>
            some (put params place.key value) := by
  cases provider with
  | openai =>
      rw [setSystem, placeOf, openaiSetSystem, openaiPlace]
      split_ifs with hresponses hchat
      · rfl
      · simp only [Place.value, Option.map_map]
        rfl
      · rfl
  | anthropic =>
      rw [setSystem, placeOf, anthropicSetSystem, anthropicPlace]
      split_ifs <;> rfl
  | bedrock =>
      obtain ⟨⟨model, op⟩, hparse⟩ := Option.isSome_iff_exists.mp (hsupported rfl)
      rw [setSystem, placeOf, bedrockSetSystem, hparse, Option.bind_some, Option.bind_some]
      simp only [bedrockPlace]
      split_ifs with hblocks hanthropic hcohere
      · rfl
      · rfl
      · rfl
      · cases hmessages : JsonValue.get params messagesKey with
        | some messages =>
            simp only [Place.value, Option.map_map]
            rfl
        | none =>
            cases hprompt : JsonValue.get params (ofString "prompt") with
            | some value =>
                simp only [Place.value, hprompt, Option.bind_some]
                rfl
            | none =>
                cases hinput : JsonValue.get params (ofString "inputText") with
                | some value =>
                    simp only [Place.value, hinput, Option.bind_some]
                    rfl
                | none => rfl

theorem Place.fits_iff (place : Place) :
    (∃ value, place.value python params content = some value ∧
      isJson python.dumpsRoom (.dict (put params place.key value)) ∧
        place.Carries params content value) ↔ place.Fits python params content := by
  simp only [isJson, within_put, Bool.and_eq_true]
  cases place with
  | field key =>
      simp only [Place.value, Place.Carries, Place.Fits, Option.some.injEq, isJson]
      constructor
      · rintro ⟨value, rfl, hjson, -⟩
        exact hjson
      · intro hjson
        exact ⟨content, rfl, hjson, rfl⟩
  | blocks key =>
      simp only [Place.value, Place.Carries, Place.Fits, Option.some.injEq, isJson]
      constructor
      · rintro ⟨value, rfl, hjson, -⟩
        exact hjson
      · intro hjson
        exact ⟨_, rfl, hjson, rfl⟩
  | messages held replaced =>
      simp only [Place.value, Place.Carries, Place.Fits, Option.map_eq_some_iff,
        withoutRoles_eq_some_iff, isJson]
      constructor
      · rintro ⟨value, ⟨rest, ⟨messages, hmessages, hroles, hrest⟩, rfl⟩, ⟨hothers, hvalue⟩,
          hcarries⟩
        obtain rfl : rest = conversation held :=
          List.tail_eq_of_cons_eq (JsonValue.list.inj hcarries)
        rw [within_messages, Bool.and_eq_true] at hvalue
        refine ⟨hothers, ⟨messages, hmessages, fun message hmem => ⟨hroles message hmem, ?_⟩⟩,
          hvalue⟩
        rw [conversation, hmessages, Option.getD_some] at hrest
        have hmem_iff := congrArg (message ∈ ·) hrest
        simpa [hmem] using hmem_iff.symm
      · rintro ⟨hothers, ⟨messages, hmessages, hroles⟩, hvalue⟩
        refine ⟨_, ⟨conversation held, ⟨messages, hmessages,
          fun message hmem => (hroles message hmem).1, ?_⟩, rfl⟩, ⟨hothers, ?_⟩, rfl⟩
        · rw [conversation, hmessages, Option.getD_some]
          apply List.filter_congr
          intro message hmem
          rw [(hroles message hmem).2]
        · rw [within_messages, Bool.and_eq_true]
          exact hvalue
  | head key =>
      simp only [Place.value, Place.Carries, Place.Fits, Option.bind_eq_some_iff]
      constructor
      · rintro ⟨-, -, ⟨hothers, -⟩, text, old, rfl, hold, rfl⟩
        exact ⟨hothers, ⟨text, rfl⟩, old, hold⟩
      · rintro ⟨hothers, ⟨text, rfl⟩, old, hold⟩
        exact ⟨_, ⟨.str old, hold, rfl⟩, ⟨hothers, isJson_text hothers _ _⟩, text, old, rfl, hold,
          rfl⟩

theorem Place.replaced_put_iff {place : Place} {value : JsonValue} :
    place.Replaced params content (put params place.key value) ↔
      place.Carries params content value := by
  constructor
  · rintro ⟨-, held, hget, hcarries⟩
    rw [get_put_self] at hget
    exact Option.some.inj hget ▸ hcarries
  · intro hcarries
    exact ⟨fun other hne => get_put_of_ne hne, value, get_put_self, hcarries⟩

theorem applyTo_iff (hsupported : Supports provider subpath) (current : JsonValue) :
    (match applyTo python provider current subpath params with
      | none => False
      | some none => True
      | some (some (others, version)) => isJson python.dumpsRoom (.dict others) ∧
          ∃ content number place, item current contentKey = some content ∧
            item current versionKey = some number ∧ python.str number = some version ∧
              placeOf provider subpath params = some place ∧
                place.Replaced params content others) ↔
      ∃ content, item current contentKey = some content ∧
        ∀ place, placeOf provider subpath params = some place →
          (∃ number, item current versionKey = some number ∧ (python.str number).isSome) ∧
            place.Fits python params content := by
  rw [applyTo]
  cases hcontent : item current contentKey with
  | none => simp
  | some content =>
      rw [Option.bind_some, setSystem_eq hsupported]
      cases hplace : placeOf provider subpath params with
      | none => simp
      | some place =>
          simp only [Option.some.injEq, exists_eq_left', forall_eq']
          rw [← Place.fits_iff]
          cases hvalue : place.value python params content with
          | none => simp
          | some value =>
              simp only [Option.map_some, Option.bind_some, Option.some.injEq, exists_eq_left']
              by_cases hfits : fits python.dumpsRoom (.dict (put params place.key value))
              · rw [if_pos hfits]
                cases hnumber : item current versionKey with
                | none => simp
                | some number =>
                    cases hversion : python.str number with
                    | none => simp [hversion]
                    | some version => simp [hversion, Place.replaced_put_iff]
              · rw [if_neg hfits]
                exact ⟨False.elim, fun hholds => hfits (fits_of_isJson hholds.2.1)⟩

end Claim

/-! ### The published prompts -/

theorem livePrompts_dict {setup : Reload.Setup} {document live : JsonValue} {path : CodePoints}
    (hlive : Reload.livePrompts setup document path = .ok live) :
    ∃ prompts, live = .dict prompts := by
  unfold Reload.livePrompts at hlive
  cases document with
  | dict document =>
      cases hprompts : (JsonValue.get document (ofString "prompts")).filter isTruthy with
      | none =>
          simp only [hprompts] at hlive
          cases hlive
          exact ⟨[], rfl⟩
      | some prompts =>
          simp only [hprompts] at hlive
          cases prompts with
          | dict prompts =>
              obtain ⟨versions, -, hversions⟩ := Reload.Yaml.bind_eq_ok hlive
              cases hversions
              exact ⟨_, rfl⟩
          | null | bool _ | int _ | float _ | str _ | list _ => cases hlive
  | null | bool _ | int _ | float _ | str _ | list _ => cases hlive

theorem refreshPrompts_published (last : JsonValue) (setup : Reload.Setup) (document : JsonValue)
    (path : CodePoints) :
    ∃ prompts, refreshPrompts last (published setup document path) = .dict prompts := by
  unfold published
  cases hlive : Reload.livePrompts setup document path with
  | error _ => exact ⟨[], rfl⟩
  | ok live =>
      obtain ⟨prompts, rfl⟩ := livePrompts_dict hlive
      cases prompts with
      | nil => exact ⟨[], rfl⟩
      | cons prompt prompts => exact ⟨prompt :: prompts, rfl⟩

/-- Whatever prompts.yaml the deploy published, and whatever the gateway had read before. -/
theorem setsOnlyThePrompt_iff (python : Interpreter) (setup : Reload.Setup)
    (document last : JsonValue) (path : CodePoints) (provider : Provider)
    (name subpath : CodePoints) (body : Body) (hsupported : Supports provider subpath) :
    SetsOnlyThePrompt python (refreshPrompts last (published setup document path)) provider name
        subpath body ↔
      HoldsWhen python (refreshPrompts last (published setup document path)) provider name
        subpath body := by
  obtain ⟨prompts, hprompts⟩ := refreshPrompts_published last setup document path
  have hlive : live (.dict prompts) name = (JsonValue.get prompts name).filter notNone := rfl
  rw [hprompts]
  unfold SetsOnlyThePrompt HoldsWhen apply
  dsimp only
  rw [hlive]
  cases hcurrent : (JsonValue.get prompts name).filter notNone with
  | none => exact Iff.rfl
  | some current =>
      cases body with
      | unreadable error model => cases error <;> exact Iff.rfl
      | json value =>
          cases value with
          | dict params =>
              refine Iff.trans ?_ (applyTo_iff hsupported current)
              dsimp only
              cases applyTo python provider current subpath params with
              | none => exact Iff.rfl
              | some placed =>
                  cases placed with
                  | none => exact Iff.rfl
                  | some written =>
                      refine and_congr_right fun _ => ⟨?_, ?_⟩
                      · rintro ⟨_, _, content, number, place, hbody, hsame, hplaced⟩
                        cases hbody
                        cases hsame
                        exact ⟨content, number, place, hplaced⟩
                      · rintro ⟨content, number, place, hplaced⟩
                        exact ⟨params, current, content, number, place, rfl, rfl, hplaced⟩
          | null | bool _ | int _ | float _ | str _ | list _ => exact Iff.rfl

/-! ### One prompt -/

def python : Interpreter where
  repr := fun _ => []
  strRoom := 900
  dumpsRoom := 900

/-- A prompts.yaml with one version of one prompt. -/
def greeterYaml (version : List (CodePoints × JsonValue)) : JsonValue :=
  .dict [(promptsKey, .dict [(ofString "greeter", .list [.dict version])])]

def versioned : CodePoints × JsonValue :=
  (versionKey, .str (ofString "greeter-v1"))

def greeting : CodePoints × JsonValue :=
  (contentKey, .str (ofString "Greet the caller."))

def configPath : CodePoints :=
  ofString "config/prompts.yaml"

def emptyChat : Body :=
  .json (.dict [(messagesKey, .list [])])

theorem setsOnlyThePrompt_greeting :
    SetsOnlyThePrompt python
      (refreshPrompts (.dict [])
        (published Reload.laptop (greeterYaml [versioned, greeting]) configPath))
      .anthropic (ofString "greeter") (ofString "v1/messages") emptyChat := by
  refine (setsOnlyThePrompt_iff python Reload.laptop _ (.dict []) configPath .anthropic _ _ _
    nofun).mpr ⟨greeting.2, rfl, fun place hplace => ?_⟩
  cases hplace
  exact ⟨⟨versioned.2, rfl, rfl⟩, by decide, by decide⟩

/-- The deploy takes a version without content, and every chat of the agent then fails. -/
theorem not_setsOnlyThePrompt_withoutContent :
    (published Reload.laptop (greeterYaml [versioned]) configPath).isSome ∧
      Supports .openai (ofString "v1/chat/completions") ∧
        ¬ SetsOnlyThePrompt python
          (refreshPrompts (.dict [])
            (published Reload.laptop (greeterYaml [versioned]) configPath))
          .openai (ofString "greeter") (ofString "v1/chat/completions") emptyChat := by
  refine ⟨rfl, nofun, fun hsets => ?_⟩
  have hraises : (apply python
      (refreshPrompts (.dict []) (published Reload.laptop (greeterYaml [versioned]) configPath))
      .openai (ofString "greeter") (ofString "v1/chat/completions") emptyChat).isNone := by
    decide
  rw [SetsOnlyThePrompt, Option.isNone_iff_eq_none.mp hraises] at hsets
  exact hsets

end CanyonOS.SystemPrompt
