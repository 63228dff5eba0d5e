import Mathlib
import CanyonOS.Lib.JsonValue

/-!
# The model of a proxied call

The gateway reads the model a call names, switches it where governance says so, checks the agent's
access to it, forwards the call, and records the model for pricing.
-/

namespace CanyonOS.Gateway.Proxy

open CodePoints JsonValue

inductive Provider where
  | openai
  | anthropic
  | bedrock

inductive LoadError where
  | valueError
  | recursionError

/-- A request body: the value that `json.loads` gives, or what it raises. A body that it cannot read
(a form, compressed JSON, JSON nested too deep) may name a model to the provider. -/
inductive Body where
  | json (value : JsonValue)
  | unreadable (error : LoadError) (model : Option JsonValue)

abbrev Params := List (CodePoints × JsonValue)

/-- `params[key] = value` -/
def put (params : Params) (key : CodePoints) (value : JsonValue) : Params :=
  if (get params key).isSome then
    params.map fun entry => if entry.1 = key then (key, value) else entry
  else params ++ [(key, value)]

def modelKey : CodePoints :=
  ofString "model"

def unknown : CodePoints :=
  ofString "unknown"

/-! ### Bedrock's path -/

def slash : CodePoint :=
  ofChar '/'

def modelPrefix : CodePoints :=
  ofString "model/"

/-- `rpartition("/")` -/
def rpartition (text : CodePoints) : Option (CodePoints × CodePoints) :=
  let before := text.rdropWhile (· ≠ slash)
  if before = [] then none else some (before.dropLast, text.rtakeWhile (· ≠ slash))

def bedrockModelAndOp (subpath : CodePoints) : Option (CodePoints × CodePoints) :=
  if modelPrefix.isPrefixOf subpath then rpartition (subpath.drop modelPrefix.length) else none

def converseOps : List CodePoints :=
  ["converse", "converse-stream"].map ofString

def supportedOps : List CodePoints :=
  ["invoke", "invoke-with-response-stream"].map ofString ++ converseOps

def parse (subpath : CodePoints) : Option (CodePoints × CodePoints) :=
  (bedrockModelAndOp subpath).filter fun (_, op) => op ∈ supportedOps

def modelPath (model op : CodePoints) : CodePoints :=
  modelPrefix ++ model ++ [slash] ++ op

/-! ### Reading and switching the model -/

def guessModel : Body → Option CodePoints
  | .json (.dict params) =>
      match get params modelKey with
      | some (.str model) => some model
      | _ => none
  | .json _ | .unreadable _ _ => none

/-- The body asking for `model`; `none` where reading it raises. -/
def switchBody (body : Body) (model : CodePoints) : Option Body :=
  match body with
  | .unreadable .valueError _ => some body
  | .unreadable .recursionError _ => none
  | .json (.dict params) =>
      match get params modelKey with
      | none | some .null => some body
      | some (.str named) =>
          if named = model then some body
          else some (.json (.dict (put params modelKey (.str model))))
      | some _ => some (.json (.dict (put params modelKey (.str model))))
  | .json _ => some body

/-- `_switch_model` -/
def switchModel (provider : Provider) (subpath : CodePoints) (body : Body) (model : CodePoints) :
    Option (CodePoints × Body) :=
  match provider with
  | .bedrock =>
      match parse subpath with
      | none => some (subpath, body)
      | some (_, op) => some (modelPath model op, body)
  | .openai | .anthropic => (switchBody body model).map fun body => (subpath, body)

/-! ### The system prompt -/

def endsWith (subpath : CodePoints) (ending : String) : Bool :=
  (ofString ending).isSuffixOf subpath

def contains (text : CodePoints) (part : String) : Bool :=
  text.tails.any fun rest => (ofString part).isPrefixOf rest

def role (message : JsonValue) : Option (Option JsonValue) :=
  match message with
  | .dict message => some (get message (ofString "role"))
  | _ => none

/-- The messages of other roles; `none` where a loop over them raises. -/
def withoutRoles (roles : List String) (messages : JsonValue) : Option (List JsonValue) :=
  let isRole (value : Option JsonValue) : Bool :=
    match value with
    | some (.str role) => role ∈ roles.map ofString
    | _ => false
  match messages with
  | .list messages => messages.filterMapM fun message =>
      (role message).map fun value => if isRole value then none else some message
  | .str [] | .dict [] => some []
  | _ => none

def systemMessage (text : CodePoints) : JsonValue :=
  .dict [(ofString "role", .str (ofString "system")), (ofString "content", .str text)]

section Prompt

-- how the interpreter prints a value
variable (str : JsonValue → CodePoints)

/-- `set_system`: the parameters it leaves, or that there is no place for a prompt; `none` where it
raises. -/
def setSystem (provider : Provider) (params : Params) (subpath text : CodePoints) :
    Option (Option Params) :=
  match provider with
  | .openai =>
      if endsWith subpath "responses" then
        some (some (put params (ofString "instructions") (.str text)))
      else if endsWith subpath "chat/completions" then
        let messages := (get params (ofString "messages")).filter isTruthy
        (withoutRoles ["system", "developer"] (messages.getD (.list []))).map fun rest =>
          some (put params (ofString "messages") (.list (systemMessage text :: rest)))
      else some none
  | .anthropic =>
      if endsWith subpath "messages" then
        some (some (put params (ofString "system") (.str text)))
      else some none
  | .bedrock =>
      (parse subpath).bind fun (model, op) =>
        let before (key : String) (value : JsonValue) : Params :=
          put params (ofString key) (.str (text ++ ofString "\n\n" ++ str value))
        if op ∈ converseOps ∨ contains model "amazon.nova" then
          some (some (put params (ofString "system")
            (.list [.dict [(ofString "text", .str text)]])))
        else if contains model "anthropic." then
          some (some (put params (ofString "system") (.str text)))
        else if contains model "cohere.command-r" then
          some (some (put params (ofString "preamble") (.str text)))
        else match get params (ofString "messages") with
          | some messages =>
              (withoutRoles ["system"] messages).map fun rest =>
                some (put params (ofString "messages") (.list (systemMessage text :: rest)))
          | none =>
              match get params (ofString "prompt"), get params (ofString "inputText") with
              | some value, _ => some (some (before "prompt" value))
              | none, some value => some (some (before "inputText" value))
              | none, none => some none

/-- `prompts.apply` -/
def apply (provider : Provider) (prompt : Option CodePoints) (subpath : CodePoints) (body : Body) :
    Option Body :=
  match prompt, body with
  | some text, .json (.dict params) =>
      (setSystem str provider params subpath text).map fun placed =>
        match placed with
        | some params => .json (.dict params)
        | none => body
  | some _, .unreadable .recursionError _ => none
  | _, _ => some body

end Prompt

/-! ### Access -/

structure Llm where
  name : CodePoints
  modelId : CodePoints
  /-- each with its cap -/
  agents : Option (List (CodePoints × Option ℚ))

def geoPrefixes : List CodePoints :=
  ["us-gov.", "us.", "eu.", "apac.", "jp.", "au.", "ca.", "global."].map ofString

def arnResourceMarkers : List CodePoints :=
  ["foundation-model/", "inference-profile/"].map ofString

/-- `split(marker, 1)[1]` -/
def afterMarker (marker text : CodePoints) : Option CodePoints :=
  (text.tails.find? fun rest => marker.isPrefixOf rest).map (List.drop marker.length)

def normalizeModelId (modelId : CodePoints) : CodePoints :=
  let resource :=
    if (ofString "arn:").isPrefixOf modelId then
      (arnResourceMarkers.findSome? fun marker => afterMarker marker modelId).getD modelId
    else modelId
  ((geoPrefixes.find? fun geo => geo.isPrefixOf resource).map
    fun geo => resource.drop geo.length).getD resource

/-- What the gateway has loaded, and what `worst_case_cost` comes to against a cap. -/
structure Config where
  agentName : CodePoints
  /-- `governance.model_for` -/
  target : Option CodePoints
  llms : Option (List (CodePoints × Llm))
  withinCap : Llm → ℚ → Body → Bool

/-- Whether `route` lets the call through. -/
def route (gateway : Config) (modelId : CodePoints) (body : Body) : Bool :=
  match gateway.llms with
  | none => false
  | some llms =>
      match llms.lookup (normalizeModelId modelId) with
      | none => true
      | some llm =>
          match llm.agents with
          | none => true
          | some agents =>
              match agents.lookup gateway.agentName with
              | none => false
              | some none => true
              | some (some cap) => gateway.withinCap llm cap body

/-! ### Forwarding -/

structure Request where
  provider : Provider
  subpath : CodePoints
  body : Body
  /-- of the upstream header -/
  host : Option CodePoints
  /-- the live version that prompts.yaml has for the calling function -/
  prompt : Option CodePoints

/-- The model that a request to an HTTP provider names. -/
def bodyModel : Body → Option JsonValue
  | .json (.dict params) =>
      match get params modelKey with
      | none | some .null => none
      | some model => some model
  | .json _ => none
  | .unreadable _ model => model

def noStreamOptionsHosts : List CodePoints :=
  ["api.mistral.ai"].map ofString

/-- Whether `OpenAIProvider.forward` gets past the stream options. -/
def readsStreamOptions : Body → Bool
  | .json (.dict params) =>
      let stream := ((get params (ofString "stream")).getD .null).isTruthy
      match (get params (ofString "stream_options")).filter isTruthy with
      | none | some (.dict _) => true
      | some _ => !stream
  | .json _ | .unreadable _ _ => false

/-- The model that the provider's `forward` asks for; `none` where it sends nothing. Its client
refuses an empty model id of Bedrock and a parameter of Converse that it does not know. -/
def forward (provider : Provider) (subpath : CodePoints) (body : Body) (host : Option CodePoints) :
    Option (Option JsonValue) :=
  match provider with
  | .bedrock =>
      match parse subpath with
      | none => none
      | some (model, op) =>
          if model = [] then none
          else if op ∈ converseOps then
            match body with
            | .json (.dict params) =>
                if (get params modelKey).isSome then none else some (some (.str model))
            | .json _ | .unreadable _ _ => none
          else some (some (.str model))
  | .openai =>
      host.bind fun host =>
        let asksUsage := endsWith subpath "completions" ∧ host ∉ noStreamOptionsHosts
        if asksUsage ∧ !readsStreamOptions body then none else some (bodyModel body)
  | .anthropic => host.map fun _ => bodyModel body

def extractModelId (provider : Provider) (subpath : CodePoints) (body : Body) : CodePoints :=
  match (guessModel body).filter (· ≠ []) with
  | some model => model
  | none =>
      match provider with
      | .bedrock =>
          (((bedrockModelAndOp subpath).map Prod.fst).filter (· ≠ [])).getD unknown
      | .openai | .anthropic => unknown

def Config.switchTarget (gateway : Config) : Option CodePoints :=
  gateway.target.filter (· ≠ [])

/-- A call that was let through. -/
structure Sent where
  /-- by the access check and the cap -/
  checked : CodePoints
  recorded : CodePoints
  /-- the one the request asks the provider for -/
  model : Option JsonValue

/-- The subpath and body that governance leaves. -/
def governed (gateway : Config) (request : Request) : Option (CodePoints × Body) :=
  match gateway.switchTarget with
  | some target => switchModel request.provider request.subpath request.body target
  | none => some (request.subpath, request.body)

/-- `proxy_request`; `none` where the call is refused or fails before anything is sent. -/
def proxyRequest (str : JsonValue → CodePoints) (gateway : Config) (request : Request) :
    Option Sent := do
  let (subpath, body) ← governed gateway request
  let body ← apply str request.provider request.prompt subpath body
  let modelId := extractModelId request.provider subpath body
  if route gateway modelId body then
    let model ← forward request.provider subpath body request.host
    some { checked := modelId, recorded := extractModelId request.provider subpath body, model }
  else none

/-! ### The claim -/

/-- llms.yaml lets the agent use the model. -/
def HasAccess (gateway : Config) (model : CodePoints) : Prop :=
  ∃ llms, gateway.llms = some llms ∧
    ∀ llm agents, llms.lookup (normalizeModelId model) = some llm → llm.agents = some agents →
      (agents.lookup gateway.agentName).isSome

/-- The model that is checked and recorded is the one that is called. -/
def Agrees (gateway : Config) (sent : Sent) : Prop :=
  match sent.model with
  | none => sent.checked = unknown ∧ sent.recorded = unknown
  | some (.str model) => sent.checked = model ∧ sent.recorded = model ∧ HasAccess gateway model
  | some _ => False

/-- The model a Bedrock call goes to, where `target` is what it is switched to. -/
def calledModel (target : Option CodePoints) (subpath : CodePoints) : Option CodePoints :=
  (parse subpath).map fun (model, _) => target.getD model

/-- A call to Bedrock names no other model in its body; a call to another provider has a body that
`json.loads` reads where it names a model, by a string that is not empty unless it is switched. -/
def NamesOneModel (provider : Provider) (target : Option CodePoints) (subpath : CodePoints)
    (body : Body) : Prop :=
  match provider with
  | .bedrock =>
      ∀ model, guessModel body = some model → model = [] ∨ calledModel target subpath = some model
  | .openai | .anthropic =>
      match body with
      | .unreadable _ model => model = none ∨ model = some (.str unknown)
      | .json _ =>
          match bodyModel body with
          | none => True
          | some (.str model) => model ≠ [] ∨ target.isSome
          | some _ => target.isSome

/-! ### Parameters -/

theorem get_cons (entry : CodePoints × JsonValue) (params : Params) (key : CodePoints) :
    JsonValue.get (entry :: params) key =
      (JsonValue.get params key).or (if entry.1 = key then some entry.2 else none) := by
  rw [JsonValue.get, JsonValue.get, List.reverse_cons, List.find?_append]
  cases hfind : params.reverse.find? fun entry => entry.1 = key with
  | some found => rfl
  | none =>
      by_cases hkey : entry.1 = key
      · simp [hkey]
      · simp [hkey]

theorem get_put_of_ne {params : Params} {key other : CodePoints} {value : JsonValue}
    (hne : other ≠ key) :
    JsonValue.get (put params key value) other = JsonValue.get params other := by
  rw [put]
  split_ifs with hkey
  · clear hkey
    induction params with
    | nil => rfl
    | cons entry params ih =>
        rw [List.map_cons, get_cons, get_cons, ih]
        by_cases hentry : entry.1 = key
        · rw [if_pos hentry, if_neg hne.symm, if_neg (hentry ▸ hne.symm)]
        · rw [if_neg hentry]
  · clear hkey
    induction params with
    | nil =>
        rw [List.nil_append, get_cons, if_neg hne.symm]
        rfl
    | cons entry params ih => rw [List.cons_append, get_cons, get_cons, ih]

theorem get_map_of_self {params : Params} {key : CodePoints} {value : JsonValue} :
    JsonValue.get (params.map fun entry => if entry.1 = key then (key, value) else entry) key =
      (JsonValue.get params key).map fun _ => value := by
  induction params with
  | nil => rfl
  | cons entry params ih =>
      rw [List.map_cons, get_cons, get_cons, ih]
      by_cases hentry : entry.1 = key
      · rw [if_pos hentry, if_pos rfl, if_pos hentry]
        cases JsonValue.get params key <;> rfl
      · rw [if_neg hentry, if_neg hentry, Option.or_none, Option.or_none]

theorem get_put_self {params : Params} {key : CodePoints} {value : JsonValue} :
    JsonValue.get (put params key value) key = some value := by
  rw [put]
  split_ifs with hkey
  · obtain ⟨old, hold⟩ := Option.isSome_iff_exists.mp hkey
    rw [get_map_of_self, hold, Option.map_some]
  · rw [Option.not_isSome_iff_eq_none] at hkey
    induction params with
    | nil =>
        rw [List.nil_append, get_cons, if_pos rfl]
        rfl
    | cons entry params ih =>
        rw [get_cons, Option.or_eq_none_iff] at hkey
        rw [List.cons_append, get_cons, ih hkey.1, Option.some_or]

/-! ### The system prompt leaves the model alone -/

section Prompt

variable {str : JsonValue → CodePoints} {provider : Provider} {params placed : Params}
  {subpath text : CodePoints} {prompt : Option CodePoints} {body after : Body}

theorem get_put_model {key : String} {value : JsonValue} (hkey : modelKey ≠ ofString key) :
    JsonValue.get (put params (ofString key) value) modelKey = JsonValue.get params modelKey :=
  get_put_of_ne hkey

theorem get_setSystem (hset : setSystem str provider params subpath text = some (some placed)) :
    JsonValue.get placed modelKey = JsonValue.get params modelKey := by
  cases provider with
  | openai =>
      rw [setSystem] at hset
      split_ifs at hset
      · cases hset
        exact get_put_model (by decide)
      · obtain ⟨rest, -, heq⟩ := Option.map_eq_some_iff.mp hset
        cases heq
        exact get_put_model (by decide)
      · cases hset
  | anthropic =>
      rw [setSystem] at hset
      split_ifs at hset
      · cases hset
        exact get_put_model (by decide)
      · cases hset
  | bedrock =>
      rw [setSystem] at hset
      obtain ⟨⟨model, op⟩, -, hset⟩ := Option.bind_eq_some_iff.mp hset
      dsimp only at hset
      split_ifs at hset
      · cases hset
        exact get_put_model (by decide)
      · cases hset
        exact get_put_model (by decide)
      · cases hset
        exact get_put_model (by decide)
      · split at hset
        · obtain ⟨rest, -, heq⟩ := Option.map_eq_some_iff.mp hset
          cases heq
          exact get_put_model (by decide)
        · split at hset
          · cases hset
            exact get_put_model (by decide)
          · cases hset
            exact get_put_model (by decide)
          · cases hset

/-- `prompts.apply` leaves every reading of the body's model as it is. -/
theorem eq_of_apply (happly : apply str provider prompt subpath body = some after) :
    after = body ∨ ∃ params placed, body = .json (.dict params) ∧ after = .json (.dict placed) ∧
      JsonValue.get placed modelKey = JsonValue.get params modelKey := by
  rw [apply.eq_def] at happly
  split at happly
  case h_1 text params =>
    obtain ⟨outcome, hset, heq⟩ := Option.map_eq_some_iff.mp happly
    cases outcome with
    | none => exact Or.inl heq.symm
    | some placed => exact Or.inr ⟨params, placed, rfl, heq.symm, get_setSystem hset⟩
  case h_2 => cases happly
  case h_3 =>
    cases happly
    exact Or.inl rfl

theorem guessModel_apply (happly : apply str provider prompt subpath body = some after) :
    guessModel after = guessModel body := by
  obtain rfl | ⟨params, placed, rfl, rfl, hget⟩ := eq_of_apply happly
  · rfl
  · rw [guessModel, guessModel, hget]

theorem bodyModel_apply (happly : apply str provider prompt subpath body = some after) :
    bodyModel after = bodyModel body := by
  obtain rfl | ⟨params, placed, rfl, rfl, hget⟩ := eq_of_apply happly
  · rfl
  · rw [bodyModel, bodyModel, hget]

end Prompt

/-! ### Switching -/

section Switch

variable {provider : Provider} {subpath model op : CodePoints} {body : Body}

theorem rpartition_append (hop : slash ∉ op) :
    rpartition (model ++ [slash] ++ op) = some (model, op) := by
  have hpos : ∀ char ∈ op.reverse, (decide (char ≠ slash)) = true := by
    intro char hchar
    refine decide_eq_true ?_
    rintro rfl
    exact hop (List.mem_reverse.mp hchar)
  have hdrop : (model ++ [slash] ++ op).rdropWhile (· ≠ slash) = model ++ [slash] := by
    rw [List.rdropWhile, List.reverse_append, List.dropWhile_append_of_pos hpos]
    simp
  have htake : (model ++ [slash] ++ op).rtakeWhile (· ≠ slash) = op := by
    rw [List.rtakeWhile, List.reverse_append, List.takeWhile_append_of_pos hpos]
    simp
  rw [rpartition, hdrop, htake]
  simp

theorem slash_notMem_of_supported (hop : op ∈ supportedOps) : slash ∉ op := by
  revert op
  decide

theorem parse_modelPath (hop : op ∈ supportedOps) :
    parse (modelPath model op) = some (model, op) := by
  have hprefix : modelPrefix.isPrefixOf (modelPath model op) = true := by
    rw [List.isPrefixOf_iff_prefix, modelPath, List.append_assoc, List.append_assoc]
    exact List.prefix_append _ _
  have hdrop : (modelPath model op).drop modelPrefix.length = model ++ [slash] ++ op := by
    rw [modelPath, List.append_assoc, List.append_assoc, List.drop_left, List.append_assoc]
  rw [parse, bedrockModelAndOp, if_pos hprefix, hdrop,
    rpartition_append (slash_notMem_of_supported hop), Option.filter_some,
    if_pos (decide_eq_true hop)]

theorem mem_supportedOps_of_parse (hparse : parse subpath = some (model, op)) :
    bedrockModelAndOp subpath = some (model, op) ∧ op ∈ supportedOps := by
  obtain ⟨hsplit, hop⟩ := Option.filter_eq_some_iff.mp hparse
  exact ⟨hsplit, of_decide_eq_true hop⟩

/-- What `NamesOneModel` says of a body for a provider that reads the model there. -/
def BodyNamesModel (target : Option CodePoints) (body : Body) : Prop :=
  NamesOneModel .openai target [] body

theorem namesOneModel_of_http (hprovider : provider ≠ .bedrock) {target : Option CodePoints} :
    NamesOneModel provider target subpath body ↔ BodyNamesModel target body := by
  cases provider with
  | openai => exact Iff.rfl
  | anthropic => exact Iff.rfl
  | bedrock => exact absurd rfl hprovider

theorem bodyModel_dict {params : Params} :
    bodyModel (.json (.dict params)) =
      (JsonValue.get params modelKey).filter (!·matches .null) := by
  rw [bodyModel]
  cases JsonValue.get params modelKey with
  | none => rfl
  | some value => cases value <;> rfl

theorem bodyNamesModel_dict_iff {params : Params} {target : Option CodePoints} :
    BodyNamesModel target (.json (.dict params)) ↔
      match JsonValue.get params modelKey with
      | none | some .null => True
      | some (.str model) => model ≠ [] ∨ target.isSome
      | some _ => target.isSome := by
  rw [BodyNamesModel, NamesOneModel, bodyModel_dict]
  cases JsonValue.get params modelKey with
  | none => exact Iff.rfl
  | some value => cases value <;> exact Iff.rfl

theorem bodyNamesModel_switch {target : CodePoints} {body' : Body} (htarget : target ≠ [])
    (hswitch : switchBody body target = some body') :
    BodyNamesModel none body' ↔ BodyNamesModel (some target) body := by
  have hput : ∀ params : Params,
      BodyNamesModel none (.json (.dict (put params modelKey (.str target)))) := by
    intro params
    rw [bodyNamesModel_dict_iff, get_put_self]
    exact Or.inl htarget
  rw [switchBody.eq_def] at hswitch
  split at hswitch
  case h_1 =>
    cases hswitch
    exact Iff.rfl
  case h_2 => cases hswitch
  case h_3 params =>
    split at hswitch
    case h_1 hget =>
      cases hswitch
      rw [bodyNamesModel_dict_iff, bodyNamesModel_dict_iff, hget]
    case h_2 hget =>
      cases hswitch
      rw [bodyNamesModel_dict_iff, bodyNamesModel_dict_iff, hget]
    case h_3 named hget =>
      rw [@bodyNamesModel_dict_iff _ (some target), hget]
      split_ifs at hswitch with hnamed
      · cases hswitch
        rw [bodyNamesModel_dict_iff, hget, hnamed]
        exact ⟨fun _ => Or.inr rfl, fun _ => Or.inl htarget⟩
      · cases hswitch
        exact ⟨fun _ => Or.inr rfl, fun _ => hput params⟩
    case h_4 value hnull hstr hget =>
      cases hswitch
      rw [@bodyNamesModel_dict_iff _ (some target), hget]
      refine ⟨fun _ => ?_, fun _ => hput params⟩
      cases value with
      | null => trivial
      | str named => exact Or.inr rfl
      | _ => rfl
  case h_4 value hdict =>
    cases hswitch
    cases value with
    | dict params => exact absurd rfl (hdict params)
    | _ => exact Iff.rfl

/-- After a switch to `target` the call names one model when it did before, but for `target`. -/
theorem namesOneModel_switch {target subpath' : CodePoints} {body' : Body} (htarget : target ≠ [])
    (hswitch : switchModel provider subpath body target = some (subpath', body')) :
    NamesOneModel provider none subpath' body' ↔
      NamesOneModel provider (some target) subpath body := by
  cases provider with
  | openai | anthropic =>
      obtain ⟨switched, hbody, heq⟩ := Option.map_eq_some_iff.mp hswitch
      cases heq
      rw [namesOneModel_of_http (by rintro ⟨⟩), namesOneModel_of_http (by rintro ⟨⟩)]
      exact bodyNamesModel_switch htarget hbody
  | bedrock =>
      rw [switchModel] at hswitch
      cases hparse : parse subpath with
      | none =>
          rw [hparse] at hswitch
          cases hswitch
          rw [NamesOneModel, NamesOneModel, calledModel, calledModel, hparse]
          rfl
      | some parsed =>
          obtain ⟨model, op⟩ := parsed
          rw [hparse] at hswitch
          cases hswitch
          rw [NamesOneModel, NamesOneModel, calledModel, calledModel, hparse,
            parse_modelPath (mem_supportedOps_of_parse hparse).2]
          rfl

end Switch

/-! ### What is checked is what is called -/

section Agrees

variable {str : JsonValue → CodePoints} {gateway : Config} {request : Request} {sent : Sent}
  {provider : Provider} {subpath : CodePoints} {body : Body} {host : Option CodePoints}
  {model : Option JsonValue} {modelId : CodePoints}

theorem hasAccess_of_route (hroute : route gateway modelId body = true) :
    HasAccess gateway modelId := by
  rw [route] at hroute
  split at hroute
  case h_1 => cases hroute
  case h_2 llms hllms =>
    refine ⟨llms, hllms, ?_⟩
    intro llm agents hllm hagents
    rw [hllm] at hroute
    dsimp only at hroute
    rw [hagents] at hroute
    dsimp only at hroute
    cases hagent : agents.lookup gateway.agentName with
    | none =>
        rw [hagent] at hroute
        cases hroute
    | some cap => rfl

theorem agrees_str_iff (hroute : route gateway modelId body = true) {called : CodePoints} :
    Agrees gateway { checked := modelId, recorded := modelId, model := some (.str called) } ↔
      modelId = called := by
  constructor
  · intro hagrees
    exact hagrees.1
  · rintro rfl
    exact ⟨rfl, rfl, hasAccess_of_route hroute⟩

theorem extractModelId_of_none (hguess : (guessModel body).filter (· ≠ []) = none)
    (hprovider : provider ≠ .bedrock) : extractModelId provider subpath body = unknown := by
  rw [extractModelId.eq_def, hguess]
  cases provider with
  | bedrock => exact absurd rfl hprovider
  | _ => rfl

theorem extractModelId_of_some {named : CodePoints}
    (hguess : (guessModel body).filter (· ≠ []) = some named) :
    extractModelId provider subpath body = named := by
  rw [extractModelId.eq_def, hguess]

theorem extractModelId_of_path {called op : CodePoints}
    (hguess : (guessModel body).filter (· ≠ []) = none) (hparse : parse subpath = some (called, op))
    (hcalled : called ≠ []) : extractModelId .bedrock subpath body = called := by
  rw [extractModelId.eq_def, hguess, (mem_supportedOps_of_parse hparse).1, Option.map_some,
    Option.filter_some, if_pos (decide_eq_true hcalled)]
  rfl

/-- A call to an HTTP provider asks for the model of its body. -/
theorem agrees_http_iff (hprovider : provider ≠ .bedrock)
    (hroute : route gateway (extractModelId provider subpath body) body = true) :
    Agrees gateway {
        checked := extractModelId provider subpath body
        recorded := extractModelId provider subpath body
        model := bodyModel body } ↔ BodyNamesModel none body := by
  have hnone : (guessModel body).filter (· ≠ []) = none →
      extractModelId provider subpath body = unknown :=
    fun hguess => extractModelId_of_none hguess hprovider
  cases body with
  | unreadable error named =>
      have hunknown := hnone rfl
      cases named with
      | none => exact ⟨fun _ => Or.inl rfl, fun _ => ⟨hunknown, hunknown⟩⟩
      | some value =>
          cases value with
          | str called =>
              refine (agrees_str_iff hroute).trans ?_
              rw [hunknown]
              constructor
              · rintro rfl
                exact Or.inr rfl
              · rintro (hnamed | hnamed)
                · cases hnamed
                · cases hnamed
                  rfl
          | _ =>
              constructor
              · intro hagrees
                exact hagrees.elim
              · rintro (hnamed | hnamed) <;> cases hnamed
  | json value =>
      cases value with
      | dict params =>
          rw [bodyNamesModel_dict_iff, bodyModel_dict]
          cases hget : JsonValue.get params modelKey with
          | none =>
              have hunknown := hnone (by rw [guessModel, hget]; rfl)
              exact ⟨fun _ => trivial, fun _ => ⟨hunknown, hunknown⟩⟩
          | some value =>
              cases value with
              | null =>
                  have hunknown := hnone (by rw [guessModel, hget]; rfl)
                  exact ⟨fun _ => trivial, fun _ => ⟨hunknown, hunknown⟩⟩
              | str called =>
                  refine (agrees_str_iff hroute).trans ?_
                  have hguess : guessModel (.json (.dict params)) = some called := by
                    rw [guessModel, hget]
                  by_cases hcalled : called = []
                  · have hunknown := hnone (by rw [hguess, hcalled]; rfl)
                    rw [hunknown, hcalled]
                    decide
                  · have hfilter : (guessModel (.json (.dict params))).filter (· ≠ []) =
                        some called := by
                      rw [hguess, Option.filter_some, if_pos (decide_eq_true hcalled)]
                    rw [extractModelId_of_some hfilter]
                    exact ⟨fun _ => Or.inl hcalled, fun _ => rfl⟩
              | _ => exact ⟨fun hagrees => hagrees.elim, fun hsome => by cases hsome⟩
      | _ =>
          have hunknown := hnone rfl
          exact ⟨fun _ => trivial, fun _ => ⟨hunknown, hunknown⟩⟩

/-- A call to Bedrock asks for the model of its path. -/
theorem eq_of_forward_bedrock (hforward : forward .bedrock subpath body host = some model) :
    ∃ called op, parse subpath = some (called, op) ∧ called ≠ [] ∧
      model = some (.str called) := by
  rw [forward] at hforward
  split at hforward
  case h_1 => cases hforward
  case h_2 called op hparse =>
    refine ⟨called, op, hparse, ?_⟩
    split_ifs at hforward with hempty hconverse
    · split at hforward
      · split_ifs at hforward
        cases hforward
        exact ⟨hempty, rfl⟩
      · cases hforward
      · cases hforward
    · cases hforward
      exact ⟨hempty, rfl⟩

theorem agrees_iff_of_forward
    (hroute : route gateway (extractModelId provider subpath body) body = true)
    (hforward : forward provider subpath body host = some model) :
    Agrees gateway {
        checked := extractModelId provider subpath body
        recorded := extractModelId provider subpath body
        model } ↔ NamesOneModel provider none subpath body := by
  cases provider with
  | openai =>
      have hmodel : model = bodyModel body := by
        obtain ⟨upstream, -, hforward⟩ := Option.bind_eq_some_iff.mp hforward
        dsimp only at hforward
        split_ifs at hforward
        exact (Option.some_inj.mp hforward).symm
      rw [hmodel, namesOneModel_of_http (by rintro ⟨⟩)]
      exact agrees_http_iff (by rintro ⟨⟩) hroute
  | anthropic =>
      have hmodel : model = bodyModel body := by
        obtain ⟨upstream, -, heq⟩ := Option.map_eq_some_iff.mp hforward
        exact heq.symm
      rw [hmodel, namesOneModel_of_http (by rintro ⟨⟩)]
      exact agrees_http_iff (by rintro ⟨⟩) hroute
  | bedrock =>
      obtain ⟨called, op, hparse, hcalled, rfl⟩ := eq_of_forward_bedrock hforward
      refine (agrees_str_iff hroute).trans ?_
      rw [NamesOneModel, calledModel, hparse]
      cases hfilter : (guessModel body).filter (· ≠ []) with
      | none =>
          rw [extractModelId_of_path hfilter hparse hcalled]
          refine ⟨fun _ named hguess => Or.inl ?_, fun _ => rfl⟩
          by_contra hnamed
          rw [hguess, Option.filter_some, if_pos (decide_eq_true hnamed)] at hfilter
          cases hfilter
      | some named =>
          rw [extractModelId_of_some hfilter]
          obtain ⟨hguess, hnamed⟩ := Option.filter_eq_some_iff.mp hfilter
          constructor
          · rintro rfl other heq
            rw [hguess] at heq
            cases heq
            exact Or.inr rfl
          · intro honly
            obtain hempty | hsame := honly named hguess
            · exact absurd hempty (of_decide_eq_true hnamed)
            · exact (Option.some_inj.mp hsame).symm

theorem namesOneModel_apply {prompt : Option CodePoints} {after : Body}
    {target : Option CodePoints}
    (happly : apply str provider prompt subpath body = some after) :
    NamesOneModel provider target subpath after ↔ NamesOneModel provider target subpath body := by
  obtain rfl | ⟨params, placed, rfl, rfl, hget⟩ := eq_of_apply happly
  · exact Iff.rfl
  · cases provider with
    | bedrock => rw [NamesOneModel, NamesOneModel, guessModel, guessModel, hget]
    | openai | anthropic =>
        rw [namesOneModel_of_http (by rintro ⟨⟩), namesOneModel_of_http (by rintro ⟨⟩),
          bodyNamesModel_dict_iff, bodyNamesModel_dict_iff, hget]

end Agrees


/-! ### Calls -/

def entry (name : String) (agents : Option (List (CodePoints × Option ℚ))) : CodePoints × Llm :=
  (ofString name, { name := ofString name, modelId := ofString name, agents := agents })

/-- `cheap` is open to every agent, `opus` to another agent only. -/
def twoModels : Config where
  agentName := ofString "Writer"
  target := none
  llms := some [entry "cheap" none, entry "opus" (some [(ofString "Editor", none)])]
  withinCap _ _ _ := true

def invoke (subpath : String) : Request where
  provider := .bedrock
  subpath := ofString subpath
  body := .json (.dict [(modelKey, .str (ofString "cheap"))])
  host := none
  prompt := none

def cheapCall : Sent where
  checked := ofString "cheap"
  recorded := ofString "cheap"
  model := some (.str (ofString "cheap"))

end CanyonOS.Gateway.Proxy
