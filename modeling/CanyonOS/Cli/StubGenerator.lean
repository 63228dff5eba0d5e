import CanyonOS.Cli.FunctionsSchema

/-!
# The stub that stands in for an agent

From the functions of an agent's entry a Python class is written, with a method for each that makes
a future. The schema compares the names as they stand in the entry; Python normalizes them, and
renames those that are private to the class.
-/

namespace CanyonOS.StubGenerator

open CodePoints JsonValue FunctionsSchema

/-! ### What is written -/

/-- An expression of a method: `dict` is `{"key": name, ...}`, `callerFile` is
`inspect.stack()[1].filename`. -/
inductive Expr where
  | name (id : CodePoints)
  | constant (value : CodePoints)
  | dict (entries : List (CodePoints × CodePoints))
  | callerFile (inspect : CodePoints)
deriving DecidableEq

inductive Statement where
  | pass
  | assign (target : CodePoints) (value : Expr)
  /-- `return func(keyword=value, ...)` -/
  | returnCall (func : CodePoints) (keywords : List (CodePoints × Expr))
deriving DecidableEq

structure FunctionDef where
  name : CodePoints
  args : List (CodePoints × Option Annotation)
  body : List Statement
  returns : Option Annotation

/-- The module: `from future import Future`, `import inspect`, and the class. -/
structure Module where
  imports : List CodePoints
  className : CodePoints
  bases : List CodePoints
  body : List FunctionDef

def future : CodePoints :=
  ofString "Future"

def inspect : CodePoints :=
  ofString "inspect"

def argsName : CodePoints :=
  ofString "args"

def initName : CodePoints :=
  ofString "__init__"

def parentKey : CodePoints :=
  ofString "parent"

def agentNameKey : CodePoints :=
  ofString "agent_name"

def methodKey : CodePoints :=
  ofString "method"

section Generate

variable (python : Python)

/-- `_build_stub_method` -/
def buildStubMethod (agentName : CodePoints) (function : FunctionDecl) : FunctionDef where
  name := function.name
  args := (self, none) :: function.arguments.map fun argument =>
    (argument.name, argument.type.bind python.parse)
  body := [
    .assign argsName (.dict (function.arguments.map fun argument =>
      (argument.name, argument.name))),
    .returnCall future [(parentKey, .callerFile inspect), (agentNameKey, .constant agentName),
      (methodKey, .constant function.name), (argsName, .name argsName)]]
  returns := some (.name future)

def initMethod : FunctionDef where
  name := initName
  args := [(self, none)]
  body := [.pass]
  returns := none

/-- `generate_stub` with `_build_stub_class`, none where `ast.unparse` raises -/
def generateStub (agent : CodeAgent) : Option Module :=
  let methods := agent.functions.map (buildStubMethod python agent.name)
  if methods.all fun method => method.args.all fun arg => arg.2.all python.hasRoom then
    some {
      imports := [future, inspect]
      className := agent.name
      bases := [ofString "object"]
      body := initMethod :: methods }
  else none

end Generate

/-! ### What Python makes of it -/

def Expr.rename (f : CodePoints → CodePoints) : Expr → Expr
  | .name id => .name (f id)
  | .constant value => .constant value
  | .dict entries => .dict (entries.map fun entry => (entry.1, f entry.2))
  | .callerFile inspect => .callerFile (f inspect)

def Statement.rename (f : CodePoints → CodePoints) : Statement → Statement
  | .pass => .pass
  | .assign target value => .assign (f target) (value.rename f)
  | .returnCall func keywords =>
      .returnCall (f func) (keywords.map fun keyword => (keyword.1, keyword.2.rename f))

def debug : CodePoints :=
  ofString "__debug__"

/-- The names of a method as the compiler has them. -/
def FunctionDef.rename (f : CodePoints → CodePoints) (method : FunctionDef) : FunctionDef where
  name := f method.name
  args := method.args.map fun arg => (f arg.1, arg.2)
  body := method.body.map (Statement.rename f)
  returns := method.returns

def FunctionDef.params (method : FunctionDef) : List CodePoints :=
  method.args.map Prod.fst

/-- What it raises SyntaxError for: a parameter twice, and `__debug__` as a name. -/
def FunctionDef.compiles (method : FunctionDef) : Bool :=
  method.params.Nodup ∧ debug ∉ method.params ∧ method.name ≠ debug

/-- The names in a class body that the class is made with, for which a method raises TypeError. -/
def classNames : List CodePoints :=
  ["__classcell__", "__qualname__", "__slots__"].map ofString

/-- What a name of an annotation is in the body of the class, after these methods. -/
def classScope (methods : List FunctionDef) (name : CodePoints) : Option Evaluated :=
  if name ∈ methods.map FunctionDef.name then some .function
  else if name = future then some (.type name)
  else builtins name

def FunctionDef.annotations (method : FunctionDef) : List Annotation :=
  method.args.filterMap Prod.snd ++ method.returns.toList

/-- Whether each `def` of the class runs, after these methods. -/
def definesAll : List FunctionDef → List FunctionDef → Bool
  | _, [] => true
  | before, method :: methods =>
      method.annotations.all (fun type => (evaluate (classScope before) type).isSome) &&
        definesAll (before ++ [method]) methods

/-- A module that was imported. -/
structure Loaded where
  imports : List CodePoints
  className : CodePoints
  methods : List FunctionDef

section Import

variable (python : Python)

/-- Normalized, and renamed if private to the class. -/
def inClass (className name : CodePoints) : CodePoints :=
  mangle (python.nfkc className) (python.nfkc name)

/-- The import of the stub; none where it raises. -/
def importStub (module : Module) : Option Loaded :=
  let methods := module.body.map (FunctionDef.rename (inClass python module.className))
  if python.nfkc module.className ≠ debug ∧ methods.all FunctionDef.compiles ∧
      definesAll [] methods ∧ ∀ method ∈ methods, method.name ∉ classNames then
    some {
      imports := module.imports.map python.nfkc
      className := python.nfkc module.className
      methods }
  else none

end Import

/-- An attribute of the class: the last method of the name. -/
def Loaded.method (loaded : Loaded) (name : CodePoints) : Option FunctionDef :=
  loaded.methods.reverse.find? fun method => method.name = name

/-- Whether `Stub()` gives an instance, and its attributes are looked up in the class. A `__new__`
would make a future, an `__init__` of the entry would return one. -/
def Loaded.hasInstances (loaded : Loaded) : Bool :=
  (loaded.method initName).any (fun method => method.body = [.pass]) &&
    (loaded.method (ofString "__new__")).isNone &&
      (loaded.method (ofString "__getattribute__")).isNone

/-- What a global of the module is: an import, unless the class has its name. -/
def Loaded.isImport (loaded : Loaded) (name : CodePoints) : Bool :=
  name ∈ loaded.imports ∧ name ≠ loaded.className

/-! ### A call of the stub -/

section Call

variable {Value : Type}

inductive Object (Value : Type) where
  | stub
  | passed (value : Value)
  | text (value : CodePoints)
  | dict (entries : List (CodePoints × Value))
  | file

/-- What the constructor of `Future` gets. -/
abbrev Future (Value : Type) := List (CodePoints × Object Value)

abbrev Locals (Value : Type) := List (CodePoints × Object Value)

def find (locals : Locals Value) (name : CodePoints) : Option (Object Value) :=
  (locals.find? fun entry => entry.1 = name).map Prod.snd

def passed? : Object Value → Option Value
  | .passed value => some value
  | _ => none

/-- The parameters after `self`, each with its value; none for a TypeError. -/
def bind (params : List CodePoints) (positional : List Value)
    (keywords : List (CodePoints × Value)) : Option (Locals Value) :=
  if positional.length ≤ params.length ∧
      (keywords.map Prod.fst).Perm (params.drop positional.length) then
    some ((params.zip positional ++ keywords).map fun entry => (entry.1, .passed entry.2))
  else none

section Body

variable (loaded : Loaded) (locals : Locals Value)

/-- Whether a name is an import where the method reads it. -/
def isGlobal (name : CodePoints) : Bool :=
  (find locals name).isNone && loaded.isImport name

def Expr.eval : Expr → Option (Object Value)
  | .name id => find locals id
  | .constant value => some (.text value)
  | .dict entries =>
      (entries.mapM fun entry =>
        ((find locals entry.2).bind passed?).map fun value => (entry.1, value)).map .dict
  | .callerFile inspect => if isGlobal loaded locals inspect then some .file else none

end Body

/-- The body of a method: the future that it makes, none if it makes none. -/
def runBody (loaded : Loaded) : Locals Value → List Statement → Option (Future Value)
  | locals, .assign target value :: body =>
      (value.eval loaded locals).bind fun object => runBody loaded ((target, object) :: locals) body
  | locals, .returnCall func keywords :: _ =>
      if isGlobal loaded locals func then
        keywords.mapM fun keyword =>
          (keyword.2.eval loaded locals).map fun object => (keyword.1, object)
      else none
  | _, _ => none

/-- `Stub().name(*positional, **keywords)` -/
def call (loaded : Loaded) (name : CodePoints) (positional : List Value)
    (keywords : List (CodePoints × Value)) : Option (Future Value) :=
  (loaded.method name).bind fun method =>
    match method.params with
    | [] => none
    | self :: params =>
        if loaded.hasInstances then
          (bind params positional keywords).bind fun locals =>
            runBody loaded ((self, .stub) :: locals) method.body
        else none

end Call

/-! ### The claim -/

/-- The future of a function's call with these values. -/
def futureOf {Value : Type} (agent : CodeAgent) (function : FunctionDecl) (values : List Value) :
    Future Value := [
  (parentKey, .file),
  (agentNameKey, .text agent.name),
  (methodKey, .text function.name),
  (argsName, .dict ((function.arguments.map ArgumentDecl.name).zip values))]

section Claim

variable (python : Python) (Value : Type) (write : CodePoints → CodePoints) (agent : CodeAgent)

/-- The stub is imported, and each function makes its future, whichever of its arguments are given
by name, in any order. A name is written as `write` has it: normalized in the source of a caller,
as it is for `getattr`. -/
def Faithful : Prop :=
  ∃ module loaded, generateStub python agent = some module ∧
    importStub python module = some loaded ∧
      ∀ function ∈ agent.functions, ∀ values : List Value,
        values.length = function.arguments.length → ∀ count ≤ values.length,
          ∀ keywords, keywords.Perm
              (((function.arguments.map fun argument => write argument.name).zip values).drop
                count) →
            call loaded (write function.name) (values.take count) keywords =
              some (futureOf agent function values)

/-- A name of the class. -/
def nameOf (name : CodePoints) : CodePoints :=
  inClass python agent.name name

def paramsOf (function : FunctionDecl) : List CodePoints :=
  function.arguments.map fun argument => nameOf python agent argument.name

/-- The names with which instances are made and their attributes found. -/
def instanceNames : List CodePoints :=
  ["__init__", "__new__", "__getattribute__"].map ofString

/-- The annotations of each function can be written and evaluated where the functions before it have
taken their names in the class. -/
def Annotated : Prop :=
  ∀ before function after, agent.functions = before ++ function :: after →
    ∀ argument ∈ function.arguments, ∀ type, argument.type.bind python.parse = some type →
      python.hasRoom type ∧
        (evaluate (fun name =>
          if name ∈ before.map fun function => nameOf python agent function.name then
            some .function
          else builtins name) type).isSome

/-- The module is compiled and the class made. -/
structure Imports : Prop where
  className : python.nfkc agent.name ≠ debug
  params : ∀ function ∈ agent.functions, (self :: paramsOf python agent function).Nodup
  debug : ∀ function ∈ agent.functions, debug ∉ paramsOf python agent function ∧
    nameOf python agent function.name ≠ debug
  classNames : ∀ function ∈ agent.functions, nameOf python agent function.name ∉ classNames
  annotated : Annotated python agent

/-- What is called is the function's own method, which finds the imports. -/
structure Calls : Prop where
  className : agent.functions ≠ [] → python.nfkc agent.name ∉ [future, inspect]
  instances : ∀ function ∈ agent.functions, nameOf python agent function.name ∉ instanceNames
  distinct : (agent.functions.map fun function => nameOf python agent function.name).Nodup
  globals : ∀ function ∈ agent.functions, ∀ name ∈ paramsOf python agent function,
    name ∉ [future, inspect]
  written : ∀ function ∈ agent.functions, nameOf python agent function.name = write function.name ∧
    ∀ argument ∈ function.arguments, nameOf python agent argument.name = write argument.name

def HoldsWhen : Prop :=
  Imports python agent ∧ Calls python write agent

end Claim

/-! ### The class that is made -/

section Made

variable {python : Python} {agent : CodeAgent}

theorem nfkc_future : python.nfkc future = future :=
  python.nfkc_ascii _ (by decide)

theorem nfkc_inspect : python.nfkc inspect = inspect :=
  python.nfkc_ascii _ (by decide)

theorem nameOf_eq_self {name : CodePoints} (hascii : name.all fun char => char.val < 0x80)
    (hpublic : ¬ (dunder <+: name ∧ ¬ dunder <:+ name)) : nameOf python agent name = name := by
  rw [nameOf, inClass, python.nfkc_ascii name hascii, mangle, if_neg]
  exact fun h => hpublic ⟨h.1, h.2.1⟩

@[simp]
theorem nameOf_self : nameOf python agent self = self :=
  nameOf_eq_self (by decide) (by decide)

@[simp]
theorem nameOf_argsName : nameOf python agent argsName = argsName :=
  nameOf_eq_self (by decide) (by decide)

@[simp]
theorem nameOf_future : nameOf python agent future = future :=
  nameOf_eq_self (by decide) (by decide)

@[simp]
theorem nameOf_inspect : nameOf python agent inspect = inspect :=
  nameOf_eq_self (by decide) (by decide)

@[simp]
theorem nameOf_initName : nameOf python agent initName = initName :=
  nameOf_eq_self (by decide) (by decide)

variable (python agent)

/-- The method of a function, with the names that Python has for it. -/
def methodOf (function : FunctionDecl) : FunctionDef where
  name := nameOf python agent function.name
  args := (self, none) :: function.arguments.map fun argument =>
    (nameOf python agent argument.name, argument.type.bind python.parse)
  body := [
    .assign argsName (.dict (function.arguments.map fun argument =>
      (argument.name, nameOf python agent argument.name))),
    .returnCall future [(parentKey, .callerFile inspect), (agentNameKey, .constant agent.name),
      (methodKey, .constant function.name), (argsName, .name argsName)]]
  returns := some (.name future)

def loadedOf : Loaded where
  imports := [future, inspect]
  className := python.nfkc agent.name
  methods := initMethod :: agent.functions.map (methodOf python agent)

variable {python agent}

theorem rename_buildStubMethod (function : FunctionDecl) :
    (buildStubMethod python agent.name function).rename (nameOf python agent) =
      methodOf python agent function := by
  simp [buildStubMethod, FunctionDef.rename, methodOf, Statement.rename, Expr.rename,
    Function.comp_def]

theorem rename_initMethod : initMethod.rename (nameOf python agent) = initMethod := by
  simp [initMethod, FunctionDef.rename, Statement.rename]

theorem params_methodOf (function : FunctionDecl) :
    (methodOf python agent function).params = self :: paramsOf python agent function := by
  simp [methodOf, FunctionDef.params, paramsOf]

/-- Each annotation can be written. -/
def Written (python : Python) (agent : CodeAgent) : Prop :=
  ∀ function ∈ agent.functions, ∀ argument ∈ function.arguments,
    ∀ type, argument.type.bind python.parse = some type → python.hasRoom type = true

theorem generateStub_eq_some_iff {module : Module} :
    generateStub python agent = some module ↔ Written python agent ∧
      module = {
        imports := [future, inspect]
        className := agent.name
        bases := [ofString "object"]
        body := initMethod :: agent.functions.map (buildStubMethod python agent.name) } := by
  have hall : ((agent.functions.map (buildStubMethod python agent.name)).all fun method =>
      method.args.all fun arg => arg.2.all python.hasRoom) = true ↔ Written python agent := by
    simp [Written, buildStubMethod, Option.all_eq_true]
  unfold generateStub
  dsimp only
  rw [Option.ite_none_right_eq_some, hall, Option.some_inj, eq_comm]

/-- The class is made. -/
def Makes (python : Python) (agent : CodeAgent) : Prop :=
  python.nfkc agent.name ≠ debug ∧
    (∀ function ∈ agent.functions, (methodOf python agent function).compiles = true) ∧
      definesAll [initMethod] (agent.functions.map (methodOf python agent)) = true ∧
        ∀ function ∈ agent.functions, nameOf python agent function.name ∉ classNames

theorem exists_importStub_iff {loaded : Loaded} :
    (∃ module, generateStub python agent = some module ∧ importStub python module = some loaded) ↔
      Written python agent ∧ Makes python agent ∧ loaded = loadedOf python agent := by
  have hmethods : (initMethod :: agent.functions.map (buildStubMethod python agent.name)).map
      (FunctionDef.rename (inClass python agent.name)) =
        initMethod :: agent.functions.map (methodOf python agent) := by
    change (initMethod :: agent.functions.map (buildStubMethod python agent.name)).map
      (FunctionDef.rename (nameOf python agent)) = _
    rw [List.map_cons, rename_initMethod, List.map_map]
    congr 1
    exact List.map_congr_left fun function _ => rename_buildStubMethod function
  have hdefines (methods : List FunctionDef) :
      definesAll [] (initMethod :: methods) = definesAll [initMethod] methods := rfl
  have hcompiles : ((initMethod :: agent.functions.map (methodOf python agent)).all
      FunctionDef.compiles) = true ↔
        ∀ function ∈ agent.functions, (methodOf python agent function).compiles = true := by
    rw [List.all_cons, show initMethod.compiles = true by decide, Bool.true_and, List.all_map,
      List.all_eq_true]
    rfl
  have hnames : (∀ method ∈ initMethod :: agent.functions.map (methodOf python agent),
      method.name ∉ classNames) ↔
        ∀ function ∈ agent.functions, nameOf python agent function.name ∉ classNames := by
    rw [List.forall_mem_cons, List.forall_mem_map]
    exact and_iff_right (by decide)
  simp only [generateStub_eq_some_iff]
  constructor
  · rintro ⟨module, ⟨hwritten, rfl⟩, himport⟩
    unfold importStub at himport
    dsimp only at himport
    rw [Option.ite_none_right_eq_some, hmethods, hcompiles, hdefines, hnames] at himport
    obtain ⟨hmakes, heq⟩ := himport
    cases heq
    refine ⟨hwritten, hmakes, ?_⟩
    rw [List.map_cons, List.map_cons, List.map_nil, nfkc_future, nfkc_inspect]
    rfl
  · rintro ⟨hwritten, hmakes, rfl⟩
    refine ⟨_, ⟨hwritten, rfl⟩, ?_⟩
    unfold importStub
    dsimp only
    rw [hmethods, if_pos, List.map_cons, List.map_cons, List.map_nil, nfkc_future, nfkc_inspect]
    · rfl
    · rw [hcompiles, hdefines, hnames]
      exact hmakes

end Made

/-! ### Annotations -/

section Annotations

variable {scope other : CodePoints → Option Evaluated}

mutual

/-- Only builtin types are looked up. -/
theorem evaluate_congr (hscope : ∀ name ∈ builtinTypeNames, scope name = other name)
    (type : Annotation) (hbuilt : isBuilt type = true) :
    evaluate scope type = evaluate other type := by
  cases type with
  | name id => exact hscope id (of_decide_eq_true hbuilt)
  | none | ellipsis | other => rfl
  | subscript value slice =>
      obtain ⟨hvalue, hslice⟩ := Bool.and_eq_true_iff.mp hbuilt
      rw [evaluate, evaluate, evaluate_congr hscope value hvalue,
        evaluate_congr hscope slice hslice]
  | tuple items => rw [evaluate, evaluate, evaluateItems_congr hscope items hbuilt]
  | or left right =>
      obtain ⟨hleft, hright⟩ := Bool.and_eq_true_iff.mp hbuilt
      rw [evaluate, evaluate, evaluate_congr hscope left hleft, evaluate_congr hscope right hright]

theorem evaluateItems_congr (hscope : ∀ name ∈ builtinTypeNames, scope name = other name)
    (items : List Annotation) (hbuilt : areBuilt items = true) :
    evaluateItems scope items = evaluateItems other items := by
  cases items with
  | nil => rfl
  | cons item items =>
      obtain ⟨hitem, hitems⟩ := Bool.and_eq_true_iff.mp hbuilt
      rw [evaluateItems, evaluateItems, evaluate_congr hscope item hitem,
        evaluateItems_congr hscope items hitems]

end

end Annotations

theorem definesAll_iff {before methods : List FunctionDef} :
    definesAll before methods = true ↔ ∀ first method last, methods = first ++ method :: last →
      ∀ type ∈ method.annotations, (evaluate (classScope (before ++ first)) type).isSome := by
  induction methods generalizing before with
  | nil => simp [definesAll]
  | cons method methods ih =>
      rw [definesAll, Bool.and_eq_true, ih, List.all_eq_true]
      constructor
      · rintro ⟨hmethod, hmethods⟩ (_ | ⟨head, first⟩) other last heq
        · cases heq
          rw [List.append_nil]
          exact hmethod
        · obtain ⟨rfl, rfl⟩ := List.cons.inj heq
          rw [List.append_cons]
          exact hmethods first other last rfl
      · intro hall
        refine ⟨?_, fun first other last heq => ?_⟩
        · have hmethod := hall [] method methods rfl
          rw [List.append_nil] at hmethod
          exact hmethod
        · have hother := hall (method :: first) other last (by rw [heq]; rfl)
          rw [List.append_cons] at hother
          exact hother

section Imported

variable {python : Python} {agent : CodeAgent}

/-- The names that the functions have taken. -/
def scopeAfter (python : Python) (agent : CodeAgent) (before : List FunctionDecl)
    (name : CodePoints) : Option Evaluated :=
  if name ∈ before.map fun function => nameOf python agent function.name then some .function
  else builtins name

theorem classScope_eq (before : List FunctionDecl) :
    ∀ name ∈ builtinTypeNames,
      classScope (initMethod :: before.map (methodOf python agent)) name =
        scopeAfter python agent before name := by
  intro name hname
  have hinit : name ≠ initName := by
    rintro rfl
    exact absurd hname (by decide)
  have hfuture : name ≠ future := by
    rintro rfl
    exact absurd hname (by decide)
  have hnames : name ∈ (initMethod :: before.map (methodOf python agent)).map FunctionDef.name ↔
      name ∈ before.map fun function => nameOf python agent function.name := by
    rw [List.map_cons, List.map_map, List.mem_cons]
    exact or_iff_right hinit
  rw [classScope, scopeAfter, if_neg hfuture]
  simp only [hnames]

theorem annotations_methodOf (function : FunctionDecl) (type : Annotation) :
    type ∈ (methodOf python agent function).annotations ↔ type = .name future ∨
      ∃ argument ∈ function.arguments, argument.type.bind python.parse = some type := by
  simp [FunctionDef.annotations, methodOf, or_comm]

theorem isBuilt_of_accepted (haccepted : Accepted python agent) {function : FunctionDecl}
    (hfunction : function ∈ agent.functions) {argument : ArgumentDecl}
    (hargument : argument ∈ function.arguments) {type : Annotation}
    (htype : argument.type.bind python.parse = some type) : isBuilt type = true := by
  obtain ⟨typeName, hname, hparse⟩ := Option.bind_eq_some_iff.mp htype
  have hbuiltin := haccepted.typed function hfunction argument hargument typeName hname
  rw [ isBuiltinAnnotation, hparse] at hbuiltin
  exact (Bool.and_eq_true_iff.mp hbuiltin).1

theorem annotated_iff (haccepted : Accepted python agent) : Annotated python agent ↔
    Written python agent ∧
      definesAll [initMethod] (agent.functions.map (methodOf python agent)) = true := by
  have hevaluate {before : List FunctionDecl} {function : FunctionDecl}
      (hfunction : function ∈ agent.functions) {argument : ArgumentDecl}
      (hargument : argument ∈ function.arguments) {type : Annotation}
      (htype : argument.type.bind python.parse = some type) :
      evaluate (classScope ([initMethod] ++ before.map (methodOf python agent))) type =
        evaluate (scopeAfter python agent before) type :=
    evaluate_congr (classScope_eq before) type
      (isBuilt_of_accepted haccepted hfunction hargument htype)
  rw [definesAll_iff]
  constructor
  · intro hannotated
    constructor
    · intro function hfunction argument hargument type htype
      obtain ⟨before, after, heq⟩ := List.append_of_mem hfunction
      exact (hannotated before function after heq argument hargument type htype).1
    · intro first method last heq type hmem
      obtain ⟨before, rest, hfunctions, rfl, hrest⟩ := List.map_eq_append_iff.mp heq
      obtain ⟨function, after, rfl, rfl, rfl⟩ := List.map_eq_cons_iff.mp hrest
      obtain rfl | ⟨argument, hargument, htype⟩ := (annotations_methodOf function type).mp hmem
      · rw [evaluate, classScope, if_pos rfl]
        split <;> rfl
      · have hfunction : function ∈ agent.functions := by
          rw [hfunctions]
          exact List.mem_append_right _ List.mem_cons_self
        rw [hevaluate hfunction hargument htype]
        exact (hannotated before function after hfunctions argument hargument type htype).2
  · rintro ⟨hwritten, hdefines⟩ before function after heq argument hargument type htype
    have hfunction : function ∈ agent.functions := by
      rw [heq]
      exact List.mem_append_right _ List.mem_cons_self
    have hsome := hdefines (before.map (methodOf python agent)) (methodOf python agent function)
      (after.map (methodOf python agent)) (by rw [heq, List.map_append, List.map_cons]) type
      ((annotations_methodOf function type).mpr (.inr ⟨argument, hargument, htype⟩))
    rw [hevaluate hfunction hargument htype] at hsome
    exact ⟨hwritten function hfunction argument hargument type htype, hsome⟩

theorem imports_iff (haccepted : Accepted python agent) :
    Imports python agent ↔ Written python agent ∧ Makes python agent := by
  have hcompiles (function : FunctionDecl) :
      (methodOf python agent function).compiles = true ↔
        (self :: paramsOf python agent function).Nodup ∧ debug ∉ paramsOf python agent function ∧
          nameOf python agent function.name ≠ debug := by
    rw [FunctionDef.compiles, decide_eq_true_iff, params_methodOf, List.mem_cons, not_or]
    exact and_congr_right fun _ => and_congr_left fun _ => and_iff_right (by decide)
  constructor
  · intro himports
    obtain ⟨hwritten, hdefines⟩ := (annotated_iff haccepted).mp himports.annotated
    refine ⟨hwritten, himports.className, fun function hfunction => ?_, hdefines,
      himports.classNames⟩
    exact (hcompiles function).mpr ⟨himports.params function hfunction,
      himports.debug function hfunction⟩
  · rintro ⟨hwritten, hclass, hall, hdefines, hnames⟩
    exact {
      className := hclass
      params function hfunction := ((hcompiles function).mp (hall function hfunction)).1
      debug function hfunction := ((hcompiles function).mp (hall function hfunction)).2
      classNames := hnames
      annotated := (annotated_iff haccepted).mpr ⟨hwritten, hdefines⟩ }

end Imported

/-! ### Calls -/

theorem method_mem {loaded : Loaded} {name : CodePoints} {method : FunctionDef}
    (hmethod : loaded.method name = some method) :
    method ∈ loaded.methods ∧ method.name = name := by
  have hname := List.find?_some hmethod
  exact ⟨List.mem_reverse.mp (List.mem_of_find?_eq_some hmethod), of_decide_eq_true hname⟩

theorem method_eq_some {loaded : Loaded} {method : FunctionDef}
    (hnodup : (loaded.methods.map FunctionDef.name).Nodup) (hmem : method ∈ loaded.methods) :
    loaded.method method.name = some method := by
  cases hfound : loaded.method method.name with
  | none =>
      have hnone := List.find?_eq_none.mp hfound method (List.mem_reverse.mpr hmem)
      exact absurd (decide_eq_true rfl) hnone
  | some found =>
      obtain ⟨hfound, hname⟩ := method_mem hfound
      rw [List.inj_on_of_nodup_map hnodup hfound hmem hname]

theorem method_eq_none {loaded : Loaded} {name : CodePoints} :
    loaded.method name = none ↔ name ∉ loaded.methods.map FunctionDef.name := by
  rw [Loaded.method, List.find?_eq_none, List.mem_map]
  simp only [List.mem_reverse, decide_eq_true_eq, not_exists, not_and]

section Calls

variable {Value : Type}

theorem find_eq_some {locals : Locals Value} {name : CodePoints} {object : Object Value}
    (hnodup : (locals.map Prod.fst).Nodup) (hmem : (name, object) ∈ locals) :
    find locals name = some object := by
  cases hfound : locals.find? fun entry => entry.1 = name with
  | none =>
      have hnone := List.find?_eq_none.mp hfound _ hmem
      exact absurd (decide_eq_true rfl) hnone
  | some entry =>
      have hname := List.find?_some hfound
      have heq := List.inj_on_of_nodup_map hnodup (List.mem_of_find?_eq_some hfound) hmem
        (of_decide_eq_true hname)
      rw [find, hfound, heq]
      rfl

theorem find_eq_none {locals : Locals Value} {name : CodePoints} :
    find locals name = none ↔ name ∉ locals.map Prod.fst := by
  rw [find, Option.map_eq_none_iff, List.find?_eq_none, List.mem_map]
  simp only [decide_eq_true_eq, not_exists, not_and]

theorem zip_take {α β : Type} (first : List α) (second : List β) (count : ℕ) :
    first.zip (second.take count) = (first.zip second).take count := by
  induction count generalizing first second with
  | zero => simp
  | succ count ih => cases first <;> cases second <;> simp [ih]

/-- The values of the parameters, those given by name in any order. -/
theorem bind_eq_some {params : List CodePoints} {values : List Value}
    {keywords : List (CodePoints × Value)} {count : ℕ} (hlength : values.length = params.length)
    (hcount : count ≤ values.length)
    (hkeywords : keywords.Perm ((params.zip values).drop count)) :
    ∃ locals, bind params (values.take count) keywords = some locals ∧
      locals.Perm ((params.zip values).map fun entry => (entry.1, .passed entry.2)) := by
  have hfst : (params.zip values).map Prod.fst = params := List.map_fst_zip hlength.ge
  have htake : (values.take count).length = count := by
    rw [List.length_take, min_eq_left hcount]
  have hbinds : (values.take count).length ≤ params.length ∧
      (keywords.map Prod.fst).Perm (params.drop (values.take count).length) := by
    rw [htake, ← hlength]
    have hperm := hkeywords.map Prod.fst
    rw [List.map_drop, hfst] at hperm
    exact ⟨hcount, hperm⟩
  refine ⟨_, if_pos hbinds, List.Perm.map _ ?_⟩
  rw [zip_take]
  exact (hkeywords.append_left _).trans (List.Perm.of_eq (List.take_append_drop _ _))

/-- The values that the locals have for the names, each under its key. -/
theorem mapM_entries {locals : Locals Value} {arguments : List ArgumentDecl} {values : List Value}
    {f : CodePoints → CodePoints} (hlength : values.length = arguments.length)
    (hfind : ∀ entry ∈ (arguments.map fun argument => f argument.name).zip values,
      find locals entry.1 = some (.passed entry.2)) :
    ((arguments.map fun argument => (argument.name, f argument.name)).mapM fun entry =>
      ((find locals entry.2).bind passed?).map fun value => (entry.1, value)) =
        some ((arguments.map ArgumentDecl.name).zip values) := by
  induction arguments generalizing values with
  | nil => rfl
  | cons argument arguments ih =>
      cases values with
      | nil => cases hlength
      | cons value values =>
          rw [List.map_cons, List.zip_cons_cons, List.forall_mem_cons] at hfind
          rw [List.map_cons, List.mapM_cons, hfind.1, ih (Nat.succ.inj hlength) hfind.2]
          rfl

section Faithful

variable {python : Python} {agent : CodeAgent} {function : FunctionDecl}

theorem isImport_loadedOf {name : CodePoints} :
    (loadedOf python agent).isImport name = true ↔
      name ∈ [future, inspect] ∧ name ≠ python.nfkc agent.name := by
  rw [Loaded.isImport, decide_eq_true_iff]
  rfl

/-- The body of the method of a function makes its future, where it finds the imports and, of each
argument, the value. -/
theorem runBody_methodOf {locals : Locals Value} {values : List Value}
    (hlength : values.length = function.arguments.length)
    (hfind : ∀ entry ∈ (paramsOf python agent function).zip values,
      find locals entry.1 = some (.passed entry.2)) :
    runBody (loadedOf python agent) locals (methodOf python agent function).body =
      if isGlobal (loadedOf python agent)
          ((argsName, .dict ((function.arguments.map ArgumentDecl.name).zip values)) :: locals)
          future ∧
        isGlobal (loadedOf python agent)
          ((argsName, .dict ((function.arguments.map ArgumentDecl.name).zip values)) :: locals)
          inspect then
        some (futureOf agent function values)
      else none := by
  have hentries := mapM_entries hlength hfind
  rw [methodOf]
  dsimp only
  rw [runBody, Expr.eval, hentries, Option.map_some, Option.bind_some, runBody]
  set locals := (argsName, Object.dict ((function.arguments.map ArgumentDecl.name).zip values)) ::
    locals with hlocals
  have hargs : find locals argsName =
      some (.dict ((function.arguments.map ArgumentDecl.name).zip values)) := by
    simp [find, hlocals]
  by_cases hinspect : isGlobal (loadedOf python agent) locals inspect = true
  · simp [hinspect, Expr.eval, hargs, futureOf]
  · simp [hinspect, Expr.eval]

theorem isGlobal_iff {locals : Locals Value} {name : CodePoints}
    (hname : name ∈ [future, inspect]) :
    isGlobal (loadedOf python agent) locals name = true ↔
      name ∉ locals.map Prod.fst ∧ name ≠ python.nfkc agent.name := by
  rw [isGlobal, Bool.and_eq_true, Option.isNone_iff_eq_none, find_eq_none, isImport_loadedOf]
  exact and_congr_right fun _ => and_iff_right hname

/-- Where the parameters have their values. -/
theorem find_params {locals : Locals Value} {params : List CodePoints} {values : List Value}
    (hlength : values.length = params.length) (hnodup : (self :: params).Nodup)
    (hperm : locals.Perm ((params.zip values).map fun entry => (entry.1, .passed entry.2))) :
    (∀ entry ∈ params.zip values,
      find ((self, .stub) :: locals) entry.1 = some (.passed entry.2)) ∧
        (((self, .stub) :: locals).map Prod.fst).Perm (self :: params) := by
  have hkeys : (locals.map Prod.fst).Perm params := by
    have hmap := hperm.map Prod.fst
    rw [List.map_map] at hmap
    exact hmap.trans (List.Perm.of_eq (List.map_fst_zip hlength.ge))
  have hnames : (((self, Object.stub) :: locals).map Prod.fst).Perm (self :: params) :=
    hkeys.cons self
  refine ⟨fun entry hentry => find_eq_some (hnames.nodup_iff.mpr hnodup) ?_, hnames⟩
  exact List.mem_cons_of_mem _ (hperm.mem_iff.mpr (List.mem_map_of_mem hentry))

theorem method_loadedOf {name : CodePoints} {method : FunctionDef}
    (hmethod : (loadedOf python agent).method name = some method) :
    method = initMethod ∨ ∃ function ∈ agent.functions,
      method = methodOf python agent function ∧ nameOf python agent function.name = name := by
  obtain ⟨hmem, hname⟩ := method_mem hmethod
  obtain rfl | hmem := List.mem_cons.mp hmem
  · exact .inl rfl
  · obtain ⟨function, hfunction, rfl⟩ := List.mem_map.mp hmem
    exact .inr ⟨function, hfunction, rfl, hname⟩

theorem hasInstances_loadedOf : (loadedOf python agent).hasInstances = true ↔
    ∀ function ∈ agent.functions, nameOf python agent function.name ∉ instanceNames := by
  have hinit : ((loadedOf python agent).method initName).any
      (fun method => method.body = [.pass]) = true ↔
        ∀ function ∈ agent.functions, nameOf python agent function.name ≠ initName := by
    rw [Loaded.method, loadedOf, List.reverse_cons, List.find?_append]
    cases hfound : (agent.functions.map (methodOf python agent)).reverse.find?
        fun method => method.name = initName with
    | none =>
        have hnone := List.find?_eq_none.mp hfound
        refine iff_of_true (by decide) fun function hfunction hname => ?_
        exact hnone _ (List.mem_reverse.mpr (List.mem_map_of_mem hfunction)) (decide_eq_true hname)
    | some method =>
        have hname := List.find?_some hfound
        have hmem := List.mem_reverse.mp (List.mem_of_find?_eq_some hfound)
        obtain ⟨function, hfunction, rfl⟩ := List.mem_map.mp hmem
        refine iff_of_false ?_ fun hall => hall function hfunction (of_decide_eq_true hname)
        rw [Option.some_or, Option.any_some, decide_eq_true_iff]
        intro hbody
        cases hbody
  have hnone {name : CodePoints} (hname : name ≠ initName) :
      ((loadedOf python agent).method name).isNone = true ↔
        ∀ function ∈ agent.functions, nameOf python agent function.name ≠ name := by
    rw [Option.isNone_iff_eq_none, method_eq_none, loadedOf, List.map_cons, List.mem_cons, not_or,
      List.map_map, List.mem_map]
    simp only [not_exists, not_and]
    exact and_iff_right hname
  rw [Loaded.hasInstances, Bool.and_eq_true, Bool.and_eq_true, hinit, hnone (by decide),
    hnone (by decide)]
  simp only [instanceNames, List.map_cons, List.map_nil, List.mem_cons, List.not_mem_nil, or_false,
    not_or]
  constructor
  · rintro ⟨⟨hinit, hnew⟩, hattribute⟩ function hfunction
    exact ⟨hinit function hfunction, hnew function hfunction, hattribute function hfunction⟩
  · intro hall
    exact ⟨⟨fun function hfunction => (hall function hfunction).1,
      fun function hfunction => (hall function hfunction).2.1⟩,
      fun function hfunction => (hall function hfunction).2.2⟩

/-- A call of a function's method with its arguments. -/
theorem call_methodOf {name : CodePoints} {values : List Value} {count : ℕ}
    {keywords : List (CodePoints × Value)}
    (hmethod : (loadedOf python agent).method name = some (methodOf python agent function))
    (hinstances : (loadedOf python agent).hasInstances = true)
    (hnodup : (self :: paramsOf python agent function).Nodup)
    (hglobals : ∀ global ∈ [future, inspect],
      global ∉ paramsOf python agent function ∧ global ≠ python.nfkc agent.name)
    (hlength : values.length = function.arguments.length) (hcount : count ≤ values.length)
    (hkeywords : keywords.Perm (((paramsOf python agent function).zip values).drop count)) :
    call (loadedOf python agent) name (values.take count) keywords =
      some (futureOf agent function values) := by
  have hparams : values.length = (paramsOf python agent function).length := by
    rw [hlength, paramsOf, List.length_map]
  obtain ⟨locals, hbind, hperm⟩ := bind_eq_some hparams hcount hkeywords
  obtain ⟨hfind, hkeys⟩ := find_params hparams hnodup hperm
  rw [call, hmethod, Option.bind_some, params_methodOf]
  dsimp only
  rw [if_pos hinstances, hbind, Option.bind_some, runBody_methodOf hlength hfind, if_pos]
  have hglobal {global : CodePoints} (hmem : global ∈ [future, inspect]) (hself : global ≠ self)
      (hargs : global ≠ argsName) (object : Object Value) :
      isGlobal (loadedOf python agent) ((argsName, object) :: (self, .stub) :: locals) global =
        true := by
    rw [isGlobal_iff hmem, List.map_cons, List.mem_cons, not_or, hkeys.mem_iff, List.mem_cons,
      not_or]
    exact ⟨⟨hargs, hself, (hglobals global hmem).1⟩, (hglobals global hmem).2⟩
  exact ⟨hglobal (by decide) (by decide) (by decide) _,
    hglobal (by decide) (by decide) (by decide) _⟩

variable {write : CodePoints → CodePoints}

theorem names_loadedOf : (loadedOf python agent).methods.map FunctionDef.name =
    initName :: agent.functions.map fun function => nameOf python agent function.name := by
  rw [loadedOf, List.map_cons, List.map_map]
  rfl

theorem faithful_of_holdsWhen (haccepted : Accepted python agent)
    (hholds : HoldsWhen python write agent) : Faithful python Value write agent := by
  obtain ⟨himports, hcalls⟩ := hholds
  obtain ⟨hwritten, hmakes⟩ := (imports_iff haccepted).mp himports
  obtain ⟨module, hgenerate, himport⟩ := exists_importStub_iff.mpr ⟨hwritten, hmakes, rfl⟩
  refine ⟨module, _, hgenerate, himport, ?_⟩
  intro function hfunction values hlength count hcount keywords hkeywords
  have hinit : ∀ function ∈ agent.functions, nameOf python agent function.name ≠ initName := by
    intro function hfunction hname
    exact hcalls.instances function hfunction (hname ▸ by decide)
  have hnodup : ((loadedOf python agent).methods.map FunctionDef.name).Nodup := by
    rw [names_loadedOf, List.nodup_cons]
    refine ⟨fun hmem => ?_, hcalls.distinct⟩
    obtain ⟨function, hfunction, hname⟩ := List.mem_map.mp hmem
    exact hinit function hfunction hname
  have hmethod : (loadedOf python agent).method (write function.name) =
      some (methodOf python agent function) := by
    rw [← (hcalls.written function hfunction).1]
    exact method_eq_some hnodup (List.mem_cons_of_mem _ (List.mem_map_of_mem hfunction))
  have hparams : (function.arguments.map fun argument => write argument.name) =
      paramsOf python agent function := by
    refine List.map_congr_left fun argument hargument => ?_
    exact ((hcalls.written function hfunction).2 argument hargument).symm
  rw [hparams] at hkeywords
  refine call_methodOf hmethod (hasInstances_loadedOf.mpr hcalls.instances)
    (himports.params function hfunction) ?_ hlength hcount hkeywords
  intro global hglobal
  refine ⟨fun hmem => hcalls.globals function hfunction global hmem hglobal, ?_⟩
  rintro rfl
  exact hcalls.className (List.ne_nil_of_mem hfunction) hglobal

theorem of_bind_eq_some {params : List CodePoints} {positional : List Value}
    {keywords : List (CodePoints × Value)} {locals : Locals Value}
    (hbind : bind params positional keywords = some locals) :
    (keywords.map Prod.fst).Perm (params.drop positional.length) ∧
      locals = (params.zip positional ++ keywords).map fun entry => (entry.1, .passed entry.2) := by
  obtain ⟨⟨-, hperm⟩, heq⟩ := Option.ite_none_right_eq_some.mp hbind
  exact ⟨hperm, (Option.some.inj heq).symm⟩

/-- What a call that made a future ran. -/
theorem of_call_eq_some {name : CodePoints} {positional : List Value}
    {keywords : List (CodePoints × Value)} {result : Future Value}
    (hcall : call (loadedOf python agent) name positional keywords = some result) :
    (loadedOf python agent).hasInstances = true ∧ ∃ function ∈ agent.functions,
      (loadedOf python agent).method name = some (methodOf python agent function) ∧
        nameOf python agent function.name = name ∧
          ∃ locals, bind (paramsOf python agent function) positional keywords = some locals ∧
            runBody (loadedOf python agent) ((self, .stub) :: locals)
              (methodOf python agent function).body = some result := by
  obtain ⟨method, hmethod, hcall⟩ := Option.bind_eq_some_iff.mp hcall
  obtain rfl | ⟨function, hfunction, rfl, hname⟩ := method_loadedOf hmethod
  · obtain ⟨-, hcall⟩ := Option.ite_none_right_eq_some.mp hcall
    obtain ⟨locals, -, hrun⟩ := Option.bind_eq_some_iff.mp hcall
    cases hrun
  · rw [params_methodOf] at hcall
    obtain ⟨hinstances, hcall⟩ := Option.ite_none_right_eq_some.mp hcall
    obtain ⟨locals, hbind, hrun⟩ := Option.bind_eq_some_iff.mp hcall
    exact ⟨hinstances, function, hfunction, hmethod, hname, locals, hbind, hrun⟩

theorem of_runBody_eq_some {other : FunctionDecl} {locals : Locals Value} {values : List Value}
    (hrun : runBody (loadedOf python agent) locals (methodOf python agent other).body =
      some (futureOf agent function values)) :
    other.name = function.name ∧ ∃ object, ∀ global ∈ [future, inspect],
      isGlobal (loadedOf python agent) ((argsName, object) :: locals) global = true := by
  rw [methodOf] at hrun
  dsimp only at hrun
  rw [runBody] at hrun
  obtain ⟨object, -, hrun⟩ := Option.bind_eq_some_iff.mp hrun
  rw [runBody] at hrun
  obtain ⟨hfuture, hrun⟩ := Option.ite_none_right_eq_some.mp hrun
  by_cases hinspect : isGlobal (loadedOf python agent) ((argsName, object) :: locals) inspect = true
  · simp only [Expr.eval, hinspect, if_true, List.mapM_cons, List.mapM_nil, Option.map_some] at hrun
    cases hargs : find ((argsName, object) :: locals) argsName with
    | none => simp [hargs] at hrun
    | some args =>
        simp only [hargs, Option.map_some, futureOf, Option.pure_def, Option.bind_eq_bind,
          Option.bind_some, Option.some_inj, List.cons.injEq, Prod.mk.injEq, Object.text.injEq]
          at hrun
        refine ⟨hrun.2.2.1.2, object, ?_⟩
        simp only [List.forall_mem_cons, List.not_mem_nil, false_imp_iff, implies_true, and_true]
        exact ⟨hfuture, hinspect⟩
  · simp [hinspect, Expr.eval] at hrun

theorem eq_of_perm_drop {first second : List CodePoints} (hlength : first.length = second.length)
    (hperm : ∀ count ≤ first.length, (first.drop count).Perm (second.drop count)) :
    first = second := by
  induction first generalizing second with
  | nil => exact (List.eq_nil_of_length_eq_zero hlength.symm).symm
  | cons head first ih =>
      cases second with
      | nil => cases hlength
      | cons other second =>
          obtain rfl := ih (Nat.succ.inj hlength) fun count hcount =>
            hperm (count + 1) (Nat.succ_le_succ hcount)
          have hheads := Multiset.coe_eq_coe.mpr (hperm 0 (Nat.zero_le _))
          rw [(Multiset.cons_inj_left (first : Multiset CodePoints)).mp hheads]

/-- What a function's calls ran, if they all make its future. -/
theorem of_calls [Inhabited Value] (haccepted : Accepted python agent)
    (hfunction : function ∈ agent.functions)
    (hcalls : ∀ values : List Value, values.length = function.arguments.length →
      ∀ count ≤ values.length, ∀ keywords, keywords.Perm
        (((function.arguments.map fun argument => write argument.name).zip values).drop count) →
          call (loadedOf python agent) (write function.name) (values.take count) keywords =
            some (futureOf agent function values)) :
    (loadedOf python agent).hasInstances = true ∧
      (loadedOf python agent).method (write function.name) = some (methodOf python agent function) ∧
        nameOf python agent function.name = write function.name ∧
          (∀ global ∈ [future, inspect],
            global ∉ paramsOf python agent function ∧ global ≠ python.nfkc agent.name) ∧
            (function.arguments.map fun argument => write argument.name) =
              paramsOf python agent function := by
  have hruns (values : List Value) (hlength : values.length = function.arguments.length)
      (count : ℕ) (hcount : count ≤ values.length) :
      (loadedOf python agent).hasInstances = true ∧
        (loadedOf python agent).method (write function.name) =
            some (methodOf python agent function) ∧
          nameOf python agent function.name = write function.name ∧ ∃ locals,
            bind (paramsOf python agent function) (values.take count)
              (((function.arguments.map fun argument => write argument.name).zip values).drop
                count) = some locals ∧
              ∃ object, ∀ global ∈ [future, inspect], isGlobal (loadedOf python agent)
                ((argsName, object) :: (self, .stub) :: locals) global = true := by
    obtain ⟨hinstances, other, hother, hmethod, hname, locals, hbind, hrun⟩ :=
      of_call_eq_some (hcalls values hlength count hcount _ (List.Perm.refl _))
    obtain ⟨hsame, object, hglobals⟩ := of_runBody_eq_some hrun
    obtain rfl := List.inj_on_of_nodup_map haccepted.distinct hother hfunction hsame
    exact ⟨hinstances, hmethod, hname, locals, hbind, object, hglobals⟩
  set values : List Value := List.replicate function.arguments.length default with hvalues
  have hlength : values.length = function.arguments.length := List.length_replicate
  have hparams : values.length = (paramsOf python agent function).length := by
    rw [hlength, paramsOf, List.length_map]
  obtain ⟨hinstances, hmethod, hname, locals, hbind, object, hglobals⟩ :=
    hruns values hlength values.length le_rfl
  refine ⟨hinstances, hmethod, hname, fun global hglobal => ?_, ?_⟩
  · obtain ⟨-, rfl⟩ := of_bind_eq_some hbind
    obtain ⟨hlocal, hclass⟩ := (isGlobal_iff hglobal).mp (hglobals global hglobal)
    refine ⟨fun hmem => hlocal ?_, hclass⟩
    rw [List.map_cons, List.map_cons, List.map_map, List.map_append, List.take_length]
    refine List.mem_cons_of_mem _ (List.mem_cons_of_mem _ (List.mem_append_left _ ?_))
    change global ∈ ((paramsOf python agent function).zip values).map Prod.fst
    rw [List.map_fst_zip hparams.ge]
    exact hmem
  · refine eq_of_perm_drop (by rw [List.length_map, ← hlength, hparams]) fun count hcount => ?_
    rw [List.length_map, ← hlength] at hcount
    obtain ⟨-, -, -, locals, hbind, -⟩ := hruns values hlength count hcount
    obtain ⟨hperm, -⟩ := of_bind_eq_some hbind
    rw [List.map_drop, List.map_fst_zip (by rw [List.length_map, hlength]), List.length_take,
      min_eq_left hcount] at hperm
    exact hperm

theorem holdsWhen_of_faithful [Inhabited Value] (haccepted : Accepted python agent)
    (hfaithful : Faithful python Value write agent) : HoldsWhen python write agent := by
  obtain ⟨module, loaded, hgenerate, himport, hcalls⟩ := hfaithful
  obtain ⟨hwritten, hmakes, rfl⟩ := exists_importStub_iff.mp ⟨module, hgenerate, himport⟩
  have hof {function : FunctionDecl} (hfunction : function ∈ agent.functions) :=
    of_calls haccepted hfunction (hcalls function hfunction)
  refine ⟨(imports_iff haccepted).mpr ⟨hwritten, hmakes⟩, {
    className := fun hne hmem => ?_
    instances := fun function hfunction => ?_
    distinct := ?_
    globals := fun function hfunction name hname hmem => ?_
    written := fun function hfunction => ?_ }⟩
  · obtain ⟨function, hfunction⟩ := List.exists_mem_of_ne_nil _ hne
    exact ((hof hfunction).2.2.2.1 _ hmem).2 rfl
  · exact hasInstances_loadedOf.mp (hof hfunction).1 function hfunction
  · refine List.Nodup.map_on ?_ (List.Nodup.of_map _ haccepted.distinct)
    intro first hfirst second hsecond heq
    obtain ⟨-, hmethod, hname, -⟩ := hof hfirst
    obtain ⟨-, hother, hsame, -⟩ := hof hsecond
    rw [← hname, heq, hsame, hother] at hmethod
    have hbody := congrArg FunctionDef.body (Option.some.inj hmethod)
    simp only [methodOf, List.cons.injEq, Statement.returnCall.injEq, Prod.mk.injEq,
      Expr.constant.injEq] at hbody
    exact List.inj_on_of_nodup_map haccepted.distinct hfirst hsecond hbody.2.1.2.2.2.1.2.symm
  · exact ((hof hfunction).2.2.2.1 name hmem).1 hname
  · obtain ⟨-, -, hname, -, hparams⟩ := hof hfunction
    exact ⟨hname, fun argument hargument => (List.map_inj_left.mp hparams argument hargument).symm⟩

end Faithful

end Calls

section Claim

variable {python : Python} {environ : CodePoints → Option CodePoints}
  {fields : List (CodePoints × JsonValue)} {parent : CodePoints} {agent : CodeAgent}
  {write : CodePoints → CodePoints} {Value : Type} [Inhabited Value]

theorem faithful_iff
    (hread : readAgent python environ fields parent = (some agent, [])) :
    Faithful python Value write agent ↔ HoldsWhen python write agent :=
  ⟨holdsWhen_of_faithful (accepted_of_readAgent hread),
    faithful_of_holdsWhen (accepted_of_readAgent hread)⟩

end Claim

/-! ### Two entries -/

def isLetter (char : CodePoint) : Bool :=
  Reload.isNameChar char

/-- What `python` does on the names of these entries, which are of ASCII. -/
def cpython : Python where
  nfkc := id
  nfkc_ascii _ _ := rfl
  isIdentifier name := name.all isLetter
  isBlank text := text.isEmpty
  parse text := if text ∈ builtinTypeNames then some (.name text) else none
  hasRoom _ := true
  repr text := ofString "'" ++ text ++ ofString "'"
  reprValue _ := []
  unknownKey key _ := ofString "unknown key " ++ key

def entryOf (function : String) (arguments : List JsonValue) : List (CodePoints × JsonValue) := [
  (nameKey, .str (ofString "Search")),
  (ofString "functions", .list [.dict [(nameKey, .str (ofString function)),
    (ofString "arguments", .list arguments)]])]

def agentOf (function : String) (arguments : List ArgumentDecl) : CodeAgent where
  name := ofString "Search"
  functions := [⟨ofString function, arguments, none⟩]

def query : JsonValue :=
  .dict [(nameKey, .str (ofString "query")), (typeKey, .str (ofString "str"))]

def queryDecl : ArgumentDecl where
  name := ofString "query"
  type := some (ofString "str")

theorem readAgent_find : readAgent cpython (fun _ => none) (entryOf "find" [query])
    (ofString "agents[0]") = (some (agentOf "find" [queryDecl]), []) := by
  rfl

theorem faithful_find : Faithful cpython ℕ id (agentOf "find" [queryDecl]) := by
  refine (faithful_iff readAgent_find).mpr ⟨{
    className := by decide
    params := by decide
    debug := by decide
    classNames := by decide
    annotated := ?_ }, {
    className := by decide
    instances := by decide
    distinct := by decide
    globals := by decide
    written := by decide }⟩
  rintro (_ | ⟨first, before⟩) function after heq argument hargument type htype
  · cases heq
    cases List.mem_singleton.mp hargument
    cases htype
    exact ⟨rfl, rfl⟩
  · cases before <;> cases heq

/-- A name with two underscores before it is one of the class only. -/
theorem not_faithful_private :
    readAgent cpython (fun _ => none) (entryOf "__find" []) (ofString "agents[0]") =
        (some (agentOf "__find" []), []) ∧
      ¬ Faithful cpython ℕ id (agentOf "__find" []) := by
  have hread : readAgent cpython (fun _ => none) (entryOf "__find" []) (ofString "agents[0]") =
      (some (agentOf "__find" []), []) := rfl
  refine ⟨hread, fun hfaithful => ?_⟩
  obtain ⟨-, hcalls⟩ := holdsWhen_of_faithful (accepted_of_readAgent hread) hfaithful
  have hname := (hcalls.written _ List.mem_cons_self).1
  exact absurd hname (by decide)

end CanyonOS.StubGenerator
