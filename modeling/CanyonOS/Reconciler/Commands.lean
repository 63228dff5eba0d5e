import Mathlib
import CanyonOS.Lib.Shell

/-!
# Commands on machines

`run_on_machine` and the commands that start, check and remove the containers of replicas: on this
machine a program gets the list it was given, on any other one what the shell there makes of one
string.
-/

namespace CanyonOS.Commands

open CodePoints Shell

/-! ### Running a command -/

abbrev Host := CodePoints

def isLocalHost (host : Host) : Bool :=
  host = ofString "localhost" ∨ host = ofString "127.0.0.1"

/-- Whether `subprocess.run` can pass an argument on: no null character, and no surrogate but those
that stand for bytes. -/
def isPassable (argument : CodePoints) : Bool :=
  argument.all fun char =>
    char.val ≠ 0 ∧ ¬ (0xD800 ≤ char.val ∧ char.val < 0xDC80) ∧
      ¬ (0xDCFF < char.val ∧ char.val ≤ 0xDFFF)

def docker : CodePoints :=
  ofString "docker"

def asRoot : CodePoints :=
  ofString "sudo"

def remoteCmd (cmd : List CodePoints) : CodePoints :=
  if cmd.head? = some docker then asRoot ++ ofChar ' ' :: join cmd else join cmd

/-- `sudo` runs what follows it. -/
def program (argv : List CodePoints) : List CodePoints :=
  if argv.head? = some asRoot then argv.tail else argv

variable {fnmatch : Field → CodePoints → Bool}

/-- What the program gets that `run_on_machine` starts; nothing when none is started, or more than
one. -/
def received (machine : Machine fnmatch) (cmd : List CodePoints) (host : Host) :
    Option (List CodePoints) :=
  if isLocalHost host then
    if cmd.all isPassable then some cmd else none
  else if isPassable (remoteCmd cmd) then (argv machine (remoteCmd cmd)).map program
  else none

/-! ### The commands -/

/-- An argument of a command: a text of the code, or one with a value in it. -/
inductive Argument where
  | flag (text : String)
  | value (text : CodePoints)

def Argument.text : Argument → CodePoints
  | .flag text => ofString text
  | .value text => text

def Argument.value? : Argument → Option CodePoints
  | .flag _ => none
  | .value text => some text

/-- What the names of containers, images and volumes are made of. -/
structure Names where
  /-- `CANYONOS_DOCKER_PROJECT`, empty when it is not set -/
  project : CodePoints
  lower : CodePoints → CodePoints

namespace Names

variable (names : Names)

/-- `_prefix` -/
def namePrefix : CodePoints :=
  if names.project = [] then ofString "canyonos" else ofString "canyonos-" ++ names.project

def projectGroup : CodePoints :=
  names.namePrefix

def projectLabelArgs : List Argument :=
  [.flag "--label", .value (ofString "com.docker.compose.project=" ++ names.projectGroup)]

def containerName (replicaId : CodePoints) : CodePoints :=
  names.namePrefix ++ ofString "-" ++ names.lower replicaId

def dashed (host : Host) : CodePoints :=
  host.map fun char => if char = ofChar '.' then ofChar '-' else char

def redisContainerName (host : Host) : CodePoints :=
  names.namePrefix ++ ofString "-redis-" ++ dashed host

def metricsContainerName (host : Host) : CodePoints :=
  names.namePrefix ++ ofString "-metrics-" ++ dashed host

def imageName (agentName : CodePoints) : CodePoints :=
  names.namePrefix ++ ofString "-" ++ names.lower agentName

def dataVolumeName (agentName : CodePoints) : CodePoints :=
  names.namePrefix ++ ofString "-" ++ names.lower agentName ++ ofString "-data"

end Names

/-- As `str` prints them; none for what is not given, and for zero. -/
structure Resources where
  cpu : Option CodePoints
  memory : Option CodePoints
  gpu : Option CodePoints

def resourceLimitArgs (resources : Resources) (applyDefaults : Bool) : List Argument :=
  let cpu := resources.cpu.or (if applyDefaults then some (ofString "1") else none)
  let memory := resources.memory.or (if applyDefaults then some (ofString "512") else none)
  cpu.toList.flatMap (fun cpu => [.flag "--cpus", .value cpu]) ++
    memory.toList.flatMap (fun memory => [.flag "--memory", .value (memory ++ ofString "m")]) ++
    resources.gpu.toList.flatMap fun gpu => [.flag "--gpus", .value gpu]

/-- `-e name=value` -/
def env (name : String) (value : CodePoints) : List Argument :=
  [.flag "-e", .value (ofString name ++ ofString "=" ++ value)]

def llmGatewayDockerEnvArgs : List Argument :=
  [.flag "-e", .flag "AWS_ENDPOINT_URL_BEDROCK_RUNTIME=http://127.0.0.1:8081/bedrock",
    .flag "-e", .flag "HTTP_PROXY=http://127.0.0.1:8082",
    .flag "-e", .flag "HTTPS_PROXY=http://127.0.0.1:8082",
    .flag "-e", .flag "NO_PROXY=127.0.0.1,localhost,169.254.169.254,169.254.170.2",
    .flag "-e", .flag "SSL_CERT_FILE=/tmp/canyonos-proxy/ca-bundle.pem",
    .flag "-e", .flag "REQUESTS_CA_BUNDLE=/tmp/canyonos-proxy/ca-bundle.pem",
    .flag "-e", .flag "AWS_CA_BUNDLE=/tmp/canyonos-proxy/ca-bundle.pem"]

/-- What ends the command of a replica: its image, and what it runs. -/
inductive Runs where
  /-- with the path of the project's `.env`, on the machine that runs it -/
  | agent (envFile : Option CodePoints)
  | database (env : List (CodePoints × CodePoints)) (volumePath : Option CodePoints)
      (envFile : Option CodePoints)
  | endpoint (apiPort : CodePoints) (agent method : CodePoints) (arguments : List CodePoints)
      (controllerImage : CodePoints)

/-- What `launch` has at hand when it starts a container. -/
structure Launch where
  agentName : CodePoints
  replicaId : CodePoints
  runs : Runs
  resources : Resources
  isLocal : Bool
  /-- `-p`, with the address it is bound to -/
  published : Option CodePoints
  agentHost : CodePoints
  agentPort : CodePoints
  redisHost : CodePoints
  redisPort : CodePoints
  pollInterval : CodePoints
  logs : Bool

def envFileArgs (envFile : Option CodePoints) : List Argument :=
  envFile.toList.flatMap fun path => [.flag "--env-file", .value path]

/-- A database's volume and environment. -/
def databaseArgs (names : Names) (agentName : CodePoints) : Runs → List Argument
  | .database env volumePath _ =>
      (volumePath.filter (· ≠ [])).toList.flatMap (fun path =>
        [.flag "-v", .value (names.dataVolumeName agentName ++ ofString ":" ++ path)]) ++
      env.flatMap fun entry =>
        [.flag "-e", .value (entry.1 ++ ofString "=" ++ entry.2)]
  | .agent _ | .endpoint .. => []

def imageArgs (names : Names) (agentName : CodePoints) : Runs → List Argument
  | .agent envFile | .database _ _ envFile =>
      envFileArgs envFile ++ [.value (names.imageName agentName)]
  | .endpoint apiPort agent method arguments controllerImage =>
      [.flag "-p", .value (apiPort ++ ofString ":8080")] ++
        env "CANYONOS_ENDPOINT_AGENT" agent ++ env "CANYONOS_ENDPOINT_METHOD" method ++
        env "CANYONOS_ENDPOINT_ARGUMENTS" ([ofChar ','].intercalate arguments) ++
        [.flag "--entrypoint", .flag "python", .value controllerImage, .flag "-m",
          .flag "canyonos_core.endpoint"]

def Runs.isDatabase : Runs → Bool
  | .database .. => true
  | .agent _ | .endpoint .. => false

def networkArgs (isLocal : Bool) : List Argument :=
  if isLocal then [.flag "--network", .flag "canyonos-local"]
  else [.flag "--restart", .flag "unless-stopped"]

def logsArgs (logs : Bool) : List Argument :=
  [.flag "-e", .flag (if logs then "CANYONOS_LOGS_ENABLED=true" else "CANYONOS_LOGS_ENABLED=false")]

def publishArgs (published : Option CodePoints) : List Argument :=
  published.toList.flatMap fun published => [.flag "-p", .value published]

def runArgs (names : Names) (launch : Launch) : List Argument :=
  List.flatten [
    [.flag "docker", .flag "run", .flag "-d"],
    names.projectLabelArgs,
    networkArgs launch.isLocal,
    [.flag "--name", .value (names.containerName launch.replicaId), .flag "--add-host",
      .flag "host.docker.internal:host-gateway"],
    publishArgs launch.published,
    [.flag "--stop-timeout", .flag "180"],
    [.flag "-e", .flag "CANYONOS_SHUTDOWN_GRACE_SECONDS=180"],
    env "CANYONOS_AGENT_PORT" launch.agentPort,
    env "CANYONOS_AGENT_HOST" launch.agentHost,
    env "CANYONOS_REPLICA_ID" launch.replicaId,
    env "CANYONOS_REDIS_HOST" launch.redisHost,
    env "CANYONOS_REDIS_PORT" launch.redisPort,
    env "CANYONOS_POLL_INTERVAL" launch.pollInterval,
    llmGatewayDockerEnvArgs,
    logsArgs launch.logs,
    databaseArgs names launch.agentName launch.runs,
    resourceLimitArgs launch.resources (!launch.runs.isDatabase),
    imageArgs names launch.agentName launch.runs]

/-- A command that is run on the machine of a replica. -/
inductive Command where
  /-- `container_running`, and before a launch -/
  | inspectRunning (container : CodePoints)
  /-- `_refuse_other_projects_container` -/
  | inspectProject (container : CodePoints)
  /-- `remove_container`, and before a launch and after a port conflict -/
  | remove (container : CodePoints)
  | logs (lines : ℕ) (container : CodePoints)
  | run (launch : Launch)
  | startRedis (host : Host) (port : CodePoints)
  | removeCollector (host : Host)
  | startCollector (host : Host) (image redisPort pollInterval : CodePoints) (wantsGpu : Bool)
  /-- `_remove_remote_copy` -/
  | removeCopy (directory : CodePoints)

def gpuArgs (wantsGpu : Bool) : List Argument :=
  if wantsGpu then [.flag "--gpus", .flag "all"] else []

def noResources : Resources where
  cpu := none
  memory := none
  gpu := none

def Command.arguments (names : Names) : Command → List Argument
  | .inspectRunning container =>
      [.flag "docker", .flag "inspect", .flag "-f", .flag "\x7b\x7b.State.Running\x7d\x7d",
        .value container]
  | .inspectProject container =>
      [.flag "docker", .flag "inspect", .flag "-f",
        .flag "\x7b\x7bindex .Config.Labels \"com.docker.compose.project\"\x7d\x7d",
        .value container]
  | .remove container =>
      [.flag "docker", .flag "rm", .flag "-f", .flag "-v", .value container]
  | .logs lines container =>
      [.flag "docker", .flag "logs", .flag "--tail", .value (ofString (toString lines)),
        .value container]
  | .run launch => runArgs names launch
  | .startRedis host port =>
      [.flag "docker", .flag "run", .flag "-d"] ++ names.projectLabelArgs ++
        [.flag "--name", .value (names.redisContainerName host)] ++
        resourceLimitArgs noResources true ++
        [.flag "-p", .value (port ++ ofString ":" ++ port), .flag "redis:alpine",
          .flag "redis-server", .flag "--port", .value port]
  | .removeCollector host =>
      [.flag "docker", .flag "rm", .flag "-f", .value (names.metricsContainerName host)]
  | .startCollector host image redisPort pollInterval wantsGpu =>
      List.flatten [
        [.flag "docker", .flag "run", .flag "-d"],
        names.projectLabelArgs,
        [.flag "--name", .value (names.metricsContainerName host), .flag "--restart",
          .flag "unless-stopped", .flag "--pid=host", .flag "--network=host", .flag "-v",
          .flag "/:/host:ro"],
        gpuArgs wantsGpu,
        [.flag "-e", .flag "CANYONOS_REDIS_HOST=localhost"],
        env "CANYONOS_REDIS_PORT" redisPort,
        env "CANYONOS_METRICS_KEY" (ofString "machine:" ++ host ++ ofString ":metrics"),
        env "CANYONOS_POLL_INTERVAL" pollInterval,
        [.flag "--entrypoint", .flag "python", .value image, .flag "-m",
          .flag "canyonos_core.machine_metrics_poller"]]
  | .removeCopy directory => [.flag "rm", .flag "-rf", .value directory]

def Command.cmd (names : Names) (command : Command) : List CodePoints :=
  (command.arguments names).map Argument.text

def Command.values (names : Names) (command : Command) : List CodePoints :=
  (command.arguments names).filterMap Argument.value?

/-! ### What a machine receives -/

theorem isPassable_append (first second : CodePoints) :
    isPassable (first ++ second) = (isPassable first && isPassable second) := by
  simp [isPassable]

theorem isPassable_join (texts : List CodePoints) :
    isPassable (join texts) = texts.all isPassable := by
  induction texts with
  | nil => rfl
  | cons text texts ih =>
      cases texts with
      | nil => simp [join]
      | cons next texts =>
          rw [join_cons_cons, isPassable_append, List.all_cons, ← ih]
          rfl

/-- A text of the code that stands for itself. -/
theorem literal_ofList (chars : List Char) (hplain : isPlain chars = true) :
    Literal fnmatch (ofString (String.ofList chars)) := by
  rw [ofString, String.toList_ofList]
  exact literal_of_isPlain hplain

theorem literal_asRoot : Literal fnmatch asRoot :=
  literal_ofList _ (by decide)

theorem isPassable_remoteCmd (cmd : List CodePoints) :
    isPassable (remoteCmd cmd) = cmd.all isPassable := by
  unfold remoteCmd
  split_ifs
  · rw [isPassable_append]
    exact isPassable_join cmd
  · exact isPassable_join cmd

/-- Of a command whose name stands for itself. -/
theorem program_argv (machine : Machine fnmatch) {first : CodePoints} {rest : List CodePoints}
    (hfirst : Literal fnmatch first) (hroot : first ≠ asRoot) :
    (argv machine (remoteCmd (first :: rest))).map program =
      argv machine (join (first :: rest)) := by
  unfold remoteCmd
  split_ifs
  · rw [argv_cons machine literal_asRoot, Option.map_map]
    exact Option.map_id'
  · have hname : ∀ argv : List CodePoints, program (first :: argv) = first :: argv := by
      intro argv
      rw [program, List.head?_cons, if_neg fun heq => hroot (Option.some.inj heq)]
    cases rest with
    | nil =>
        have hargv : argv machine (join [first]) = some [first] :=
          argv_join machine (by simpa using hfirst)
        rw [hargv, Option.map_some, hname]
    | cons next rest =>
        rw [join_cons_cons, argv_cons machine hfirst, Option.map_map]
        congr 1
        funext argv
        exact hname argv

theorem received_iff {first : CodePoints} {rest : List CodePoints} (host : Host)
    (hfirst : Literal fnmatch first) (hroot : first ≠ asRoot) :
    (∀ machine : Machine fnmatch, received machine (first :: rest) host = some (first :: rest)) ↔
      (∀ text ∈ first :: rest, isPassable text = true) ∧
        (isLocalHost host = true ∨ ∀ text ∈ first :: rest, Literal fnmatch text) := by
  rw [← List.all_eq_true, ← argv_join_iff]
  cases hlocal : isLocalHost host with
  | true =>
      have hreceived : ∀ machine : Machine fnmatch, received machine (first :: rest) host =
          if (first :: rest).all isPassable then some (first :: rest) else none := by
        intro machine
        rw [received, if_pos hlocal]
      simp only [hreceived]
      cases (first :: rest).all isPassable <;> simp
  | false =>
      have hreceived : ∀ machine : Machine fnmatch, received machine (first :: rest) host =
          if (first :: rest).all isPassable then argv machine (join (first :: rest)) else none := by
        intro machine
        rw [received, if_neg (by rw [hlocal]; exact Bool.false_ne_true), isPassable_remoteCmd,
          program_argv machine hfirst hroot]
      simp only [hreceived]
      cases (first :: rest).all isPassable with
      | true => simp
      | false =>
          simp only [Bool.false_eq_true, if_false, false_and, iff_false]
          exact fun hall => (Option.some_ne_none _).symm (hall Shell.empty)

/-! ### The arguments of a command -/

/-- A text of the code must stand for itself. -/
def Argument.isSafe : Argument → Bool
  | .flag text => isPlain text.toList
  | .value _ => true

def Command.isProjectInspection : Command → Bool
  | .inspectProject _ => true
  | _ => false

theorem isSafe_flag (chars : List Char) (hplain : isPlain chars = true) :
    (Argument.flag (String.ofList chars)).isSafe = true := by
  rw [Argument.isSafe, String.toList_ofList]
  exact hplain

theorem isSafe_value (text : CodePoints) : (Argument.value text).isSafe = true :=
  rfl

theorem isPassable_of_isPlain {chars : List Char} (hplain : isPlain chars = true) :
    isPassable (chars.map ofChar) = true := by
  simp only [isPlain, decide_eq_true_eq, List.all_eq_true] at hplain
  obtain ⟨-, -, -, hchars⟩ := hplain
  rw [isPassable, List.all_map, List.all_eq_true]
  intro char hchar
  have hnull : char ≠ '\x00' := fun heq => hchars char hchar (heq ▸ by decide)
  have hzero : char.toNat ≠ 0 := fun heq => hnull (Char.toNat_inj.mp heq)
  have hvalid : char.toNat < 0xD800 ∨ 0xDFFF < char.toNat ∧ char.toNat < 0x110000 := char.valid
  have hvalue : (ofChar char : ℕ) = char.toNat := Nat.mod_eq_of_lt (toNat_lt char)
  rw [Function.comp_apply, decide_eq_true_eq, hvalue]
  omega

theorem all_isSafe_flatMap {Item : Type} {items : List Item} {make : Item → List Argument}
    (hmake : ∀ item, (make item).all Argument.isSafe = true) :
    (items.flatMap make).all Argument.isSafe = true := by
  rw [List.all_flatMap, List.all_eq_true]
  exact fun item _ => hmake item

section Arguments

variable (names : Names)

/-- A text of the code and the value it announces. -/
theorem isSafe_pair (chars : List Char) (value : CodePoints) (hplain : isPlain chars = true) :
    [Argument.flag (String.ofList chars), .value value].all Argument.isSafe = true := by
  rw [List.all_cons, isSafe_flag chars hplain]
  rfl

theorem isSafe_flags (first second : List Char) (hfirst : isPlain first = true)
    (hsecond : isPlain second = true) :
    [Argument.flag (String.ofList first), .flag (String.ofList second)].all Argument.isSafe =
      true := by
  rw [List.all_cons, isSafe_flag first hfirst, List.all_cons, isSafe_flag second hsecond]
  rfl

theorem isSafe_projectLabelArgs : names.projectLabelArgs.all Argument.isSafe = true :=
  isSafe_pair _ _ (by decide)

theorem isSafe_env (name : String) (value : CodePoints) :
    (env name value).all Argument.isSafe = true :=
  isSafe_pair _ _ (by decide)

theorem isSafe_resourceLimitArgs (resources : Resources) (applyDefaults : Bool) :
    (resourceLimitArgs resources applyDefaults).all Argument.isSafe = true := by
  simp only [resourceLimitArgs, List.all_append, Bool.and_eq_true]
  refine ⟨⟨all_isSafe_flatMap fun cpu => ?_, all_isSafe_flatMap fun memory => ?_⟩,
    all_isSafe_flatMap fun gpu => ?_⟩ <;>
    exact isSafe_pair _ _ (by decide)

theorem isSafe_llmGatewayDockerEnvArgs :
    llmGatewayDockerEnvArgs.all Argument.isSafe = true := by
  simp only [llmGatewayDockerEnvArgs, List.all_cons, List.all_nil, Bool.and_eq_true, and_true]
  and_intros <;> exact isSafe_flag _ (by decide)

theorem isSafe_databaseArgs (agentName : CodePoints) (runs : Runs) :
    (databaseArgs names agentName runs).all Argument.isSafe = true := by
  cases runs with
  | agent | endpoint => rfl
  | database env volumePath envFile =>
      simp only [databaseArgs, List.all_append, Bool.and_eq_true]
      exact ⟨all_isSafe_flatMap fun path => isSafe_pair _ _ (by decide),
        all_isSafe_flatMap fun entry => isSafe_pair _ _ (by decide)⟩

theorem isSafe_envFileArgs (envFile : Option CodePoints) :
    (envFileArgs envFile).all Argument.isSafe = true :=
  all_isSafe_flatMap fun _ => isSafe_pair _ _ (by decide)

theorem isSafe_imageArgs (agentName : CodePoints) (runs : Runs) :
    (imageArgs names agentName runs).all Argument.isSafe = true := by
  cases runs with
  | agent | database =>
      rw [imageArgs, List.all_append, isSafe_envFileArgs]
      rfl
  | endpoint =>
      simp only [imageArgs, List.all_append, List.all_cons, List.all_nil, isSafe_env,
        Bool.and_eq_true, and_true]
      and_intros <;> first | exact isSafe_flag _ (by decide) | exact isSafe_value _

theorem isSafe_networkArgs (isLocal : Bool) :
    (networkArgs isLocal).all Argument.isSafe = true := by
  unfold networkArgs
  split_ifs
  · exact isSafe_flags _ _ (by decide) (by decide)
  · exact isSafe_flags _ _ (by decide) (by decide)

theorem isSafe_gpuArgs (wantsGpu : Bool) : (gpuArgs wantsGpu).all Argument.isSafe = true := by
  unfold gpuArgs
  split_ifs
  · exact isSafe_flags _ _ (by decide) (by decide)
  · rfl

theorem isSafe_logsArgs (logs : Bool) : (logsArgs logs).all Argument.isSafe = true := by
  unfold logsArgs
  split_ifs
  · exact isSafe_flags _ _ (by decide) (by decide)
  · exact isSafe_flags _ _ (by decide) (by decide)

theorem isSafe_publishArgs (published : Option CodePoints) :
    (publishArgs published).all Argument.isSafe = true :=
  all_isSafe_flatMap fun _ => isSafe_pair _ _ (by decide)

theorem isSafe_runArgs (launch : Launch) :
    (runArgs names launch).all Argument.isSafe = true := by
  simp only [runArgs, List.flatten_cons, List.flatten_nil, List.all_append, List.all_cons,
    List.all_nil, isSafe_networkArgs, isSafe_logsArgs, isSafe_publishArgs,
    isSafe_projectLabelArgs, isSafe_env, isSafe_llmGatewayDockerEnvArgs, isSafe_databaseArgs,
    isSafe_resourceLimitArgs, isSafe_imageArgs, Bool.and_eq_true, and_true, true_and]
  and_intros <;> first | exact isSafe_flag _ (by decide) | exact isSafe_value _

/-- The code's own arguments stand for themselves, the template of one command apart. -/
theorem isSafe_arguments {command : Command} (hcommand : command.isProjectInspection = false) :
    (command.arguments names).all Argument.isSafe = true := by
  cases command with
  | inspectProject => cases hcommand
  | run launch => exact isSafe_runArgs names launch
  | inspectRunning | remove | logs | startRedis | removeCollector | removeCopy | startCollector =>
      simp only [Command.arguments, List.flatten_cons, List.flatten_nil, List.all_append,
        List.all_cons, List.all_nil, isSafe_gpuArgs, isSafe_projectLabelArgs, isSafe_env,
        isSafe_resourceLimitArgs, Bool.and_eq_true, and_true, true_and]
      and_intros <;> first | exact isSafe_flag _ (by decide) | exact isSafe_value _

end Arguments

/-! ### The same on every machine -/

section Same

variable {names : Names} {command : Command}

theorem mem_values {value : CodePoints} :
    value ∈ command.values names ↔ .value value ∈ command.arguments names := by
  unfold Command.values
  rw [List.mem_filterMap]
  constructor
  · rintro ⟨argument, hmem, hvalue⟩
    cases argument with
    | flag => cases hvalue
    | value text =>
        cases hvalue
        exact hmem
  · exact fun hmem => ⟨_, hmem, rfl⟩

/-- What holds of the code's own arguments holds of all when it holds of the values. -/
theorem forall_mem_cmd {Holds : CodePoints → Prop}
    (hflag : ∀ text, .flag text ∈ command.arguments names → Holds (ofString text)) :
    (∀ text ∈ command.cmd names, Holds text) ↔ ∀ value ∈ command.values names, Holds value := by
  unfold Command.cmd
  rw [List.forall_mem_map]
  constructor
  · exact fun hall value hvalue => hall _ (mem_values.mp hvalue)
  · intro hall argument hmem
    cases argument with
    | flag text => exact hflag text hmem
    | value text => exact hall text (mem_values.mpr hmem)

def projectTemplate : String :=
  "\x7b\x7bindex .Config.Labels \"com.docker.compose.project\"\x7d\x7d"

theorem isPassable_flag {text : String} (hmem : .flag text ∈ command.arguments names) :
    isPassable (ofString text) = true := by
  cases hcommand : command.isProjectInspection with
  | false =>
      have hsafe := List.all_eq_true.mp (isSafe_arguments names hcommand) _ hmem
      exact isPassable_of_isPlain hsafe
  | true =>
      cases command with
      | inspectProject container =>
          simp only [Command.arguments, List.mem_cons, Argument.flag.injEq, reduceCtorEq,
            List.not_mem_nil, or_false] at hmem
          rcases hmem with rfl | rfl | rfl | rfl <;> decide
      | _ => cases hcommand

theorem literal_flag (hcommand : command.isProjectInspection = false) {text : String}
    (hmem : .flag text ∈ command.arguments names) : Literal fnmatch (ofString text) := by
  have hsafe := List.all_eq_true.mp (isSafe_arguments names hcommand) _ hmem
  exact literal_of_isPlain hsafe

theorem literal_cmd_iff :
    (∀ text ∈ command.cmd names, Literal fnmatch text) ↔
      command.isProjectInspection = false ∧
        ∀ value ∈ command.values names, Literal fnmatch value := by
  cases hcommand : command.isProjectInspection with
  | false =>
      rw [forall_mem_cmd fun text hmem => literal_flag hcommand hmem]
      simp
  | true =>
      refine iff_of_false (fun hall => ?_) (by simp)
      cases command with
      | inspectProject container =>
          have htemplate :
              ofString projectTemplate ∈ (Command.inspectProject container).cmd names := by
            simp [Command.cmd, Command.arguments, Argument.text, projectTemplate]
          have hblank := (hall _ htemplate).ordinary (ofChar ' ') (by decide)
          rw [kind_blank] at hblank
          cases hblank
      | _ => cases hcommand

/-- Every command begins with the name of a program. -/
theorem cmd_eq_cons (names : Names) (command : Command) :
    ∃ first rest, command.cmd names = first :: rest ∧ Literal fnmatch first ∧ first ≠ asRoot := by
  have hdocker : docker ≠ asRoot := by
    rw [docker, asRoot, ne_eq, ofString_inj]
    decide
  have hrm : ofString "rm" ≠ asRoot := by
    rw [asRoot, ne_eq, ofString_inj]
    decide
  cases command with
  | removeCopy =>
      refine ⟨ofString "rm", _, List.map_cons .., literal_ofList _ (by decide), hrm⟩
  | _ =>
      refine ⟨docker, _, List.map_cons .., literal_ofList _ (by decide), hdocker⟩

end Same

/-- A program gets the list it was given, on this machine whenever it can be passed on, on any other
one when in addition every value in it stands for itself in a shell; but on no other machine when
Docker is asked for a container's project. -/
theorem received_same_iff (names : Names) (command : Command) (host : Host) :
    (∀ machine : Machine fnmatch,
        received machine (command.cmd names) host = some (command.cmd names)) ↔
      (∀ value ∈ command.values names, isPassable value = true) ∧
        (isLocalHost host = true ∨
          command.isProjectInspection = false ∧
            ∀ value ∈ command.values names, Literal fnmatch value) := by
  obtain ⟨first, rest, hcmd, hfirst, hroot⟩ := @cmd_eq_cons fnmatch names command
  rw [← literal_cmd_iff, ← forall_mem_cmd fun text hmem => isPassable_flag hmem, hcmd]
  exact received_iff host hfirst hroot

def portfolio : Names where
  project := ofString "portfolio"
  lower := id

/-- Another machine's shell splits the template at its blanks and removes its quotes. -/
theorem project_inspection_is_split :
    received (Shell.empty : Machine fun _ _ => false)
        ((Command.inspectProject (ofString "canyonos-portfolio-db-1a2b3c4d")).cmd portfolio)
        (ofString "10.0.0.7") =
      some [docker, ofString "inspect", ofString "-f", ofString "\x7b\x7bindex",
        ofString ".Config.Labels", ofString "com.docker.compose.project\x7d\x7d",
        ofString "canyonos-portfolio-db-1a2b3c4d"] ∧
      received (Shell.empty : Machine fun _ _ => false)
          ((Command.inspectProject (ofString "canyonos-portfolio-db-1a2b3c4d")).cmd portfolio)
          (ofString "10.0.0.7") ≠
        some ((Command.inspectProject (ofString "canyonos-portfolio-db-1a2b3c4d")).cmd
          portfolio) := by
  decide +kernel

end CanyonOS.Commands
