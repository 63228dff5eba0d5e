import CanyonOS.Controller.Reload

/-!
# The functions of an agent's entry

The schema reads the names and the types that the agent's stub is written with.
-/

namespace CanyonOS.FunctionsSchema

open CodePoints JsonValue

/-! ### Python's names -/

/-- The type of an argument, parsed. -/
inductive Annotation where
  | name (id : CodePoints)
  | none
  | ellipsis
  | subscript (value slice : Annotation)
  | tuple (items : List Annotation)
  | or (left right : Annotation)
  | other

structure Python where
  nfkc : CodePoints → CodePoints
  nfkc_ascii : ∀ name : CodePoints, name.all (fun char => char.val < 0x80) → nfkc name = name
  isIdentifier : CodePoints → Bool
  isBlank : CodePoints → Bool
  /-- `ast.parse` of an expression -/
  parse : CodePoints → Option Annotation
  /-- whether `ast.unparse` has room for an expression as nested -/
  hasRoom : Annotation → Bool
  repr : CodePoints → CodePoints
  reprValue : JsonValue → CodePoints
  /-- `_unknown_key_message` -/
  unknownKey : CodePoints → List CodePoints → CodePoints

def underscore : CodePoint :=
  ofChar '_'

def dunder : CodePoints :=
  ofString "__"

/-- The name that a name in the body of a class stands for. -/
def mangle (className name : CodePoints) : CodePoints :=
  let stripped := className.dropWhile (· = underscore)
  if dunder <+: name ∧ ¬ dunder <:+ name ∧ stripped ≠ [] then underscore :: stripped ++ name
  else name

/-! ### What the schema reads -/

structure ArgumentDecl where
  name : CodePoints
  type : Option CodePoints
deriving DecidableEq

structure FunctionDecl where
  name : CodePoints
  arguments : List ArgumentDecl
  returns : Option (Option CodePoints)
deriving DecidableEq

/-- A code agent's entry, what the stub is written from. -/
structure CodeAgent where
  name : CodePoints
  functions : List FunctionDecl

structure Violation where
  field : CodePoints
  message : CodePoints

/-- What was read, and what was reported. -/
abbrev Reading (α : Type) := α × List Violation

def builtinTypeNames : List CodePoints :=
  ["bool", "bytearray", "bytes", "complex", "dict", "float", "frozenset", "int", "list", "object",
    "set", "str", "tuple"].map ofString

/-- Those of the types that take a subscript. -/
def genericNames : List CodePoints :=
  ["dict", "frozenset", "list", "set", "tuple"].map ofString

def stubGlobalNames : List CodePoints :=
  ["Future", "inspect", "isinstance"].map ofString

/-- `keyword.kwlist` -/
def keywords : List CodePoints :=
  ["False", "None", "True", "and", "as", "assert", "async", "await", "break", "class", "continue",
    "def", "del", "elif", "else", "except", "finally", "for", "from", "global", "if", "import",
    "in", "is", "lambda", "nonlocal", "not", "or", "pass", "raise", "return", "try", "while",
    "with", "yield"].map ofString

/-- What an annotation can be; `compound` is a type made of others, which takes no subscript. -/
inductive Evaluated where
  | type (name : CodePoints)
  | compound
  | none
  | ellipsis
  | tuple
  | function
deriving DecidableEq

/-- `value[slice]` -/
def Evaluated.subscript : Evaluated → Option Evaluated
  | .type name => if name ∈ genericNames then some .compound else Option.none
  | _ => Option.none

/-- `left | right` -/
def Evaluated.or : Evaluated → Evaluated → Option Evaluated
  | .type left, .type right => some (if left = right then .type left else .compound)
  | .type _, .compound | .compound, .type _ | .compound, .compound | .type _, .none
  | .none, .type _ | .compound, .none | .none, .compound => some .compound
  | _, _ => Option.none

section Evaluate

variable (scope : CodePoints → Option Evaluated)

mutual

/-- The value of an annotation; none where it raises. -/
def evaluate : Annotation → Option Evaluated
  | .name id => scope id
  | .none => some .none
  | .ellipsis => some .ellipsis
  | .subscript value slice => do
      let value ← evaluate value
      let _ ← evaluate slice
      value.subscript
  | .tuple items => if evaluateItems items then some .tuple else Option.none
  | .or left right => do
      let left ← evaluate left
      let right ← evaluate right
      left.or right
  | .other => Option.none

def evaluateItems : List Annotation → Bool
  | [] => true
  | item :: items => (evaluate item).isSome && evaluateItems items

end

end Evaluate

mutual

/-- Only builtin type names, `None` and `...` -/
def isBuilt : Annotation → Bool
  | .name id => id ∈ builtinTypeNames
  | .none | .ellipsis => true
  | .subscript value slice => isBuilt value && isBuilt slice
  | .tuple items => areBuilt items
  | .or left right => isBuilt left && isBuilt right
  | .other => false

def areBuilt : List Annotation → Bool
  | [] => true
  | item :: items => isBuilt item && areBuilt items

end

def builtins (name : CodePoints) : Option Evaluated :=
  if name ∈ builtinTypeNames then some (.type name) else none

section Schema

variable (python : Python) (environ : CodePoints → Option CodePoints)

/-- `_is_builtin_annotation` -/
def isBuiltinAnnotation (typeName : CodePoints) : Bool :=
  match python.parse typeName with
  | none => false
  | some tree => isBuilt tree && (evaluate builtins tree).isSome

/-- `_field` -/
def fieldOf (parent key : CodePoints) : CodePoints :=
  if parent = [] then key else parent ++ ofString "." ++ key

def itemOf (parent : CodePoints) (index : ℕ) : CodePoints :=
  parent ++ ofString (s!"[{index}]")

/-- `_describe` -/
def describe : JsonValue → CodePoints
  | .null => ofString "nothing"
  | .bool value => ofString "the boolean " ++ ofString (toString value)
  | .str text => ofString "the string " ++ python.repr text
  | .list items => ofString "the list " ++ python.reprValue (.list items)
  | .dict _ => ofString "a mapping"
  | .int value => ofString "the number " ++ python.reprValue (.int value)
  | .float value => ofString "the number " ++ python.reprValue (.float value)

/-- `ENV_REF.search` -/
def hasReference : CodePoints → Bool
  | [] => false
  | char :: text => (Reload.reference (char :: text)).isSome || hasReference text

/-- `_describe_rejected` -/
def describeRejected (raw value : JsonValue) : CodePoints :=
  match raw with
  | .str text =>
      if hasReference text then
        python.repr text ++
          ofString " (environment references are only supported in string fields)"
      else describe python value
  | _ => describe python value

/-- `_resolve` -/
def resolve : JsonValue → JsonValue
  | .str text => .str (Reload.expandStr environ text)
  | value => value

/-- `_check_keys` -/
def checkKeys (fields : List (CodePoints × JsonValue)) (parent : CodePoints)
    (allowed : List CodePoints) : List Violation :=
  (fields.filter fun entry => entry.1 ∉ allowed).map fun entry =>
    ⟨fieldOf parent entry.1, python.unknownKey entry.1 allowed⟩

/-- `_string`, without a default -/
def readString (fields : List (CodePoints × JsonValue)) (key parent : CodePoints)
    (required : Bool) : Reading (Option CodePoints) :=
  match JsonValue.get fields key with
  | none | some .null =>
      (none, if required then [⟨fieldOf parent key, ofString "is required but missing"⟩] else [])
  | some raw =>
      match resolve environ raw with
      | .str text =>
          if required && hasReference text then
            (none, [⟨fieldOf parent key, python.reprValue raw ++
              ofString " names an environment variable that is not set"⟩])
          else if python.isBlank text then
            (none, [⟨fieldOf parent key, ofString "expected a non-empty string, got " ++
              describeRejected python raw (.str text)⟩])
          else (some text, [])
      | value =>
          (none, [⟨fieldOf parent key, ofString "expected a non-empty string, got " ++
            describeRejected python raw value⟩])

def typeKey : CodePoints :=
  ofString "type"

def nameKey : CodePoints :=
  ofString "name"

/-- `_annotation` -/
def readAnnotation (fields : List (CodePoints × JsonValue)) (parent what : CodePoints) :
    Reading (Option CodePoints) :=
  match readString python environ fields typeKey parent false with
  | (none, violations) => (none, violations)
  | (some typeName, violations) =>
      if isBuiltinAnnotation python typeName then (some typeName, violations)
      else
        let shown := if typeName.length ≤ 80 then typeName
          else typeName.take 77 ++ ofString "..."
        (none, violations ++ [⟨fieldOf parent typeKey, python.repr shown ++
          ofString (" is not built from builtin types; the generated stub imports nothing, so ") ++
          what ++ ofString " type may only use " ++
          (ofString ", ").intercalate builtinTypeNames ++ ofString " and None"⟩])

/-- `_identifier` -/
def readIdentifier (fields : List (CodePoints × JsonValue)) (parent : CodePoints)
    (reserved : List CodePoints) : Reading (Option CodePoints) :=
  match readString python environ fields nameKey parent true with
  | (none, violations) => (none, violations)
  | (some value, violations) =>
      if !python.isIdentifier value || value ∈ keywords then
        (none, violations ++ [⟨fieldOf parent nameKey, python.repr value ++
          ofString " is not a valid Python identifier; the generated stub uses it as a name"⟩])
      else if value ∈ reserved then
        (none, violations ++ [⟨fieldOf parent nameKey, python.repr value ++
          ofString (" would shadow the name the generated stub uses for itself; " ++
            "choose another")⟩])
      else (some value, violations)

/-- `_returns` -/
def readReturns (fields : List (CodePoints × JsonValue)) (parent : CodePoints) :
    Reading (Option (Option CodePoints)) :=
  let returnsKey := ofString "returns"
  match JsonValue.get fields returnsKey with
  | none | some .null => (none, [])
  | some (.dict block) =>
      let place := fieldOf parent returnsKey
      let (typeName, violations) := readAnnotation python environ block place (ofString "a return")
      (some typeName, checkKeys python block place [typeKey] ++ violations)
  | some block =>
      (none, [⟨fieldOf parent returnsKey, ofString "expected a mapping, got " ++
        describe python block⟩])

def self : CodePoints :=
  ofString "self"

/-- The loop of `_arguments`. -/
def readArgumentsFrom (parent : CodePoints) :
    ℕ → List CodePoints → List JsonValue → Reading (List ArgumentDecl)
  | _, _, [] => ([], [])
  | index, seen, .dict entry :: entries =>
      let place := itemOf (parent ++ ofString ".arguments") index
      let (read, named) := readIdentifier python environ entry place stubGlobalNames
      let isTaken := read = some self || read.any (· ∈ seen)
      let taken := if isTaken then
        [(⟨fieldOf place nameKey, python.repr (read.getD []) ++
          ofString " is already a parameter of the generated method"⟩ : Violation)] else []
      let (type, typed) := readAnnotation python environ entry place (ofString "an argument")
      let violations := checkKeys python entry place [nameKey, typeKey] ++ named ++ taken ++ typed
      match if isTaken then none else read with
      | some name =>
          let (arguments, later) := readArgumentsFrom parent (index + 1) (name :: seen) entries
          (⟨name, type⟩ :: arguments, violations ++ later)
      | none =>
          let (arguments, later) := readArgumentsFrom parent (index + 1) seen entries
          (arguments, violations ++ later)
  | index, seen, entry :: entries =>
      let (arguments, later) := readArgumentsFrom parent (index + 1) seen entries
      (arguments, ⟨itemOf (parent ++ ofString ".arguments") index,
        ofString "expected a mapping, got " ++ describe python entry⟩ :: later)

/-- `_arguments` -/
def readArguments (fields : List (CodePoints × JsonValue)) (parent : CodePoints) :
    Reading (List ArgumentDecl) :=
  let argumentsKey := ofString "arguments"
  match JsonValue.get fields argumentsKey with
  | none | some .null => ([], [])
  | some (.list entries) => readArgumentsFrom python environ parent 0 [] entries
  | some raw =>
      ([], [⟨fieldOf parent argumentsKey, ofString "expected a list of arguments, got " ++
        describe python raw⟩])

/-- What is wrong with the name of a method, which the functions before it have not. -/
def functionNameMessage (seen : List CodePoints) (name : CodePoints) : Option CodePoints :=
  if name ∈ builtinTypeNames then
    some (python.repr name ++ ofString (" would shadow the builtin type inside the generated " ++
      "class, breaking every annotation after it; choose another"))
  else if dunder <+: name ∧ dunder <:+ name then
    some (python.repr name ++ ofString " is reserved for Python; choose another")
  else if name ∈ seen then
    some (python.repr name ++ ofString " is already a function of this agent")
  else none

/-- `_function_name` -/
def readFunctionName (fields : List (CodePoints × JsonValue)) (parent : CodePoints)
    (seen : List CodePoints) : Reading (Option CodePoints) :=
  match readIdentifier python environ fields parent [] with
  | (none, violations) => (none, violations)
  | (some name, violations) =>
      match functionNameMessage python seen name with
      | none => (some name, violations)
      | some message => (none, violations ++ [⟨fieldOf parent nameKey, message⟩])

/-- The loop of `_functions`. -/
def readFunctionsFrom (parent : CodePoints) :
    ℕ → List CodePoints → List JsonValue → Reading (List FunctionDecl)
  | _, _, [] => ([], [])
  | index, seen, .dict entry :: entries =>
      let place := itemOf (parent ++ ofString ".functions") index
      let (read, named) := readFunctionName python environ entry place seen
      let (arguments, argued) := readArguments python environ entry place
      let (returns, returned) := readReturns python environ entry place
      let keys := ["name", "arguments", "returns"].map ofString
      let violations := checkKeys python entry place keys ++ named ++ argued ++ returned
      match read with
      | some name =>
          let (functions, later) := readFunctionsFrom parent (index + 1) (name :: seen) entries
          (⟨name, arguments, returns⟩ :: functions, violations ++ later)
      | none =>
          let (functions, later) := readFunctionsFrom parent (index + 1) seen entries
          (functions, violations ++ later)
  | index, seen, entry :: entries =>
      let (functions, later) := readFunctionsFrom parent (index + 1) seen entries
      (functions, ⟨itemOf (parent ++ ofString ".functions") index,
        ofString "expected a mapping, got " ++ describe python entry⟩ :: later)

/-- `_functions` -/
def readFunctions (fields : List (CodePoints × JsonValue)) (parent : CodePoints) :
    Reading (List FunctionDecl) :=
  let functionsKey := ofString "functions"
  match JsonValue.get fields functionsKey with
  | none | some .null => ([], [])
  | some (.list entries) => readFunctionsFrom python environ parent 0 [] entries
  | some raw =>
      ([], [⟨fieldOf parent functionsKey, ofString "expected a list of functions, got " ++
        describe python raw⟩])

/-- The name and the functions of an entry of type `agent`. -/
def readAgent (fields : List (CodePoints × JsonValue)) (parent : CodePoints) :
    Reading (Option CodeAgent) :=
  let (read, named) := readIdentifier python environ fields parent stubGlobalNames
  let (functions, declared) := readFunctions python environ fields parent
  (read.map fun name => ⟨name, functions⟩, named ++ declared)

end Schema

/-! ### What was read -/

section Reading

variable {python : Python} {environ : CodePoints → Option CodePoints}

/-- What is known of the functions of an entry without violations. -/
structure Accepted (python : Python) (agent : CodeAgent) : Prop where
  distinct : (agent.functions.map FunctionDecl.name).Nodup
  typed : ∀ function ∈ agent.functions, ∀ argument ∈ function.arguments,
    ∀ typeName, argument.type = some typeName → isBuiltinAnnotation python typeName

theorem isBuiltin_of_readAnnotation {fields : List (CodePoints × JsonValue)}
    {parent what typeName : CodePoints} {violations : List Violation}
    (hread : readAnnotation python environ fields parent what = (some typeName, violations)) :
    isBuiltinAnnotation python typeName := by
  unfold readAnnotation at hread
  split at hread
  · cases hread
  · split at hread
    case isTrue hbuiltin =>
      cases hread
      exact hbuiltin
    case isFalse => cases hread

theorem typed_of_readArgumentsFrom {parent : CodePoints} (entries : List JsonValue) (index : ℕ)
    (seen : List CodePoints) :
    ∀ argument ∈ (readArgumentsFrom python environ parent index seen entries).1,
      ∀ typeName, argument.type = some typeName → isBuiltinAnnotation python typeName := by
  induction entries generalizing index seen with
  | nil => exact List.forall_mem_nil _
  | cons entry entries ih =>
      cases entry with
      | dict entry =>
          rw [readArgumentsFrom]
          dsimp only
          split
          · refine List.forall_mem_cons.mpr ⟨fun typeName htype => ?_, ih _ _⟩
            exact isBuiltin_of_readAnnotation (Prod.ext htype rfl)
          · exact ih _ _
      | null | bool _ | int _ | float _ | str _ | list _ => exact ih _ _

theorem typed_of_readArguments {fields : List (CodePoints × JsonValue)} {parent : CodePoints} :
    ∀ argument ∈ (readArguments python environ fields parent).1,
      ∀ typeName, argument.type = some typeName → isBuiltinAnnotation python typeName := by
  unfold readArguments
  dsimp only
  split
  · exact List.forall_mem_nil _
  · exact List.forall_mem_nil _
  · exact typed_of_readArgumentsFrom _ _ _
  · exact List.forall_mem_nil _

theorem notMem_of_readFunctionName {fields : List (CodePoints × JsonValue)} {parent : CodePoints}
    {seen : List CodePoints} {name : CodePoints}
    (hread : (readFunctionName python environ fields parent seen).1 = some name) : name ∉ seen := by
  unfold readFunctionName at hread
  split at hread
  · cases hread
  · split at hread
    case h_1 hmessage =>
      cases hread
      unfold functionNameMessage at hmessage
      split_ifs at hmessage with hbuiltin hdunder hseen
      exact hseen
    case h_2 => cases hread

theorem accepted_of_readFunctionsFrom {parent : CodePoints} (entries : List JsonValue) (index : ℕ)
    (seen : List CodePoints) :
    (seen.reverse ++ (readFunctionsFrom python environ parent index seen entries).1.map
        FunctionDecl.name).Nodup = seen.reverse.Nodup ∧
      ∀ function ∈ (readFunctionsFrom python environ parent index seen entries).1,
        ∀ argument ∈ function.arguments, ∀ typeName, argument.type = some typeName →
          isBuiltinAnnotation python typeName := by
  induction entries generalizing index seen with
  | nil => exact ⟨by simp [readFunctionsFrom], List.forall_mem_nil _⟩
  | cons entry entries ih =>
      cases entry with
      | dict entry =>
          rw [readFunctionsFrom]
          dsimp only
          split
          case h_1 name hname =>
            have hseen := notMem_of_readFunctionName hname
            obtain ⟨hnodup, htyped⟩ := ih (index + 1) (name :: seen)
            refine ⟨?_, List.forall_mem_cons.mpr ⟨typed_of_readArguments, htyped⟩⟩
            rw [List.map_cons, ← List.singleton_append, ← List.append_assoc, ← List.reverse_cons,
              hnodup, List.nodup_reverse, List.nodup_reverse, List.nodup_cons, eq_iff_iff]
            exact and_iff_right hseen
          case h_2 => exact ih _ _
      | null | bool _ | int _ | float _ | str _ | list _ => exact ih _ _

/-- An entry without violations has functions of different names, and types that can be written. -/
theorem accepted_of_readAgent {fields : List (CodePoints × JsonValue)} {parent : CodePoints}
    {agent : CodeAgent} {violations : List Violation}
    (hread : readAgent python environ fields parent = (some agent, violations)) :
    Accepted python agent := by
  obtain ⟨name, -, hagent⟩ := Option.map_eq_some_iff.mp (congrArg Prod.fst hread)
  have hfunctions : (readFunctions python environ fields parent).1 = agent.functions :=
    congrArg CodeAgent.functions hagent
  unfold readFunctions at hfunctions
  dsimp only at hfunctions
  split at hfunctions
  case h_3 entries _ =>
    obtain ⟨hnodup, htyped⟩ :=
      @accepted_of_readFunctionsFrom python environ parent entries 0 []
    rw [hfunctions] at hnodup htyped
    exact ⟨hnodup.mpr List.nodup_nil, htyped⟩
  all_goals
    have hnil : agent.functions = [] := hfunctions.symm
    constructor
    · rw [hnil]
      exact List.nodup_nil
    · rw [hnil]
      exact List.forall_mem_nil _

end Reading

end CanyonOS.FunctionsSchema
