import CanyonOS.Lib.Interleaving
import Mathlib.Data.List.DropRight
import Mathlib.Data.Rat.Init

/-!
# Container logs in the output of a deploy

The global controller and the reconciler both copy the log of a failed container into the output of
the deploy, between a start and an end line. The command line reads what the two wrote, in the
order in which it came, and keeps one flag for all blocks.
-/

namespace CanyonOS.ContainerLogs

open Interleaving

abbrev Text := List Char

/-! ### Matching -/

/-- What the expressions ask of a character, ASCII and beyond. -/
structure Unicode where
  decimal? : Char → Option ℕ
  isWord : Char → Bool

/-- `str.isspace` -/
def isSpace (char : Char) : Bool :=
  (9 ≤ char.toNat && char.toNat ≤ 13) || (28 ≤ char.toNat && char.toNat ≤ 32) ||
    [0x85, 0xA0, 0x1680, 0x2028, 0x2029, 0x202F, 0x205F, 0x3000].contains char.toNat ||
      (0x2000 ≤ char.toNat && char.toNat ≤ 0x200A)

def strip (text : Text) : Text :=
  (text.dropWhile isSpace).rdropWhile isSpace

/-- One or more of some characters, as many as there are, and what follows. -/
def many1 (accepts : Char → Bool) (text : Text) : Option (Text × Text) :=
  if (text.takeWhile accepts).isEmpty then none
  else some (text.takeWhile accepts, text.dropWhile accepts)

def literal (expected : String) (text : Text) : Option Text :=
  text.dropPrefix? expected.toList

/-- `.*` -/
def restOfLine (text : Text) : Text :=
  text.takeWhile (· != '\n')

/-- `re.search`: the first place where something matches. -/
def search {Match : Type} (matches? : Text → Option Match) (text : Text) : Option Match :=
  text.tails.findSome? matches?

/-- `part in text` -/
def contains (text : Text) (part : String) : Bool :=
  text.tails.any (part.toList.isPrefixOf ·)

/-- `_LOG_LINE` -/
def logLine (line : Text) : Option Text := do
  let (_, rest) ← many1 (fun char => 'A' ≤ char && char ≤ 'Z') line
  let rest ← literal ":" rest
  let (_, rest) ← many1 (fun char => !isSpace char && char != ':') rest
  let rest ← literal ":" rest
  some (restOfLine rest)

/-- The message of a log line, empty for anything else. -/
def logMessage (line : Text) : Text :=
  (logLine line).getD []

section Steps

variable (unicode : Unicode)

def digits : Text → Option (Text × Text) :=
  many1 fun char => (unicode.decimal? char).isSome

/-- `int` of digits -/
def intOf (digits : Text) : ℕ :=
  digits.foldl (fun value char => 10 * value + (unicode.decimal? char).getD 0) 0

/-- `_STEP_DETAIL`: the step and uv's explanation. -/
def stepDetail (line : Text) : Option (Text × Text) := do
  let rest ← literal "#" line
  let (step, rest) ← digits unicode rest
  let rest ← literal " " rest
  let (_, rest) ← many1 (fun char => (unicode.decimal? char).isSome || char == '.') rest
  let (_, rest) ← many1 isSpace rest
  if ["error: ", "cause: ", "hint: "].any fun word => (literal word rest).isSome then
    some (step, restOfLine rest)
  else none

/-- `_STEP_OPEN`: the step and its name. -/
def stepOpen (line : Text) : Option (Text × Text) := do
  let rest ← literal "#" line
  let (step, rest) ← digits unicode rest
  let name ← literal " " rest
  let rest ← literal "[" name
  let (label, rest) ← many1 (· != ']') rest
  let rest ← literal "] " rest
  let (command, _) ← many1 (· != '\n') rest
  some (step, '[' :: label ++ "] ".toList ++ command)

/-- `_STEP_CLOSE` -/
def stepClose (line : Text) : Option Text := do
  let rest ← literal "#" line
  let (step, rest) ← digits unicode rest
  let rest ← literal " " rest
  ["DONE", "CACHED", "ERROR", "CANCELED"].findSome? fun word => do
    let rest ← literal word rest
    if rest.head?.any unicode.isWord then none else some step

/-- `_EXCEPTION_LINE`, of a whole line. -/
def exceptionLine (line : Text) : Bool :=
  match line.span (· != ':') with
  | (first :: name, rest) =>
      (first.isAlpha || first == '_') &&
        name.all (fun char => unicode.isWord char || char == '.') &&
        ["Error", "Exception", "Exit", "Interrupt"].any (fun word => word.toList.isSuffixOf name) &&
          !rest.contains '\n'
  | ([], _) => false

def buildingCount (line : Text) : Option Text :=
  search (fun text => do
    let rest ← literal "Building " text
    let (count, rest) ← digits unicode rest
    let _ ← literal " Docker image(s) via" rest
    some count) line

def waitingCount (line : Text) : Option Text :=
  search (fun text => do
    let rest ← literal "Waiting for " text
    let (count, rest) ← digits unicode rest
    let _ ← literal " replica(s) to become healthy" rest
    some count) line

end Steps

/-- The replica that is ready, with its address. -/
def readyReplica (line : Text) : Option Text :=
  search (fun text => do
    let rest ← literal "Controller " text
    let (name, rest) ← many1 (!isSpace ·) rest
    let rest ← literal " (" rest
    let (address, rest) ← many1 (· != ')') rest
    let _ ← literal ") is ready." rest
    some (name ++ " (".toList ++ address ++ [')'])) line

/-! ### The tracker -/

/-- `_ERROR_MARKERS` -/
def errorMarkers : List String :=
  ["ERROR:", "CRITICAL:", "Traceback (most recent call last):", "ERROR: failed to solve",
    "process did not complete successfully"]

/-- `_BENIGN_ERROR_PREFIXES` -/
def benignErrorPrefixes : List String :=
  ["ERROR:opentelemetry.", "ERROR:__main__:Destination "]

/-- `_CONTAINER_LOG_BEGIN` -/
def containerLogBegin : String := "--- begin container log:"

/-- `_CONTAINER_LOG_END` -/
def containerLogEnd : String := "--- end container log:"

/-- `_PHASES` -/
def phases : List (String × Option String × Option String) :=
  [("Generating stub:", some "Generating stubs and Docker contexts...", none),
    ("Compiling gRPC proto:", some "Generating stubs and Docker contexts...", none),
    ("Generating Docker context", some "Generating stubs and Docker contexts...", none),
    ("No Docker images to build.", none, some "No images to build"),
    ("Build complete.", none, some "Build complete"),
    ("Deploying from config:", some "Starting deploy...", none),
    ("Checking for stale containers", some "Removing stale containers...", none),
    ("Redis launched on", none, some "Redis ready"),
    ("Docker container(s) across", some "Starting agents...", none)]

/-- `time.monotonic()` -/
abbrev Time := ℚ

structure PhaseTracker where
  spinner : Option Text
  replicasTotal : ℕ
  replicasReady : List Text
  openSteps : List (Text × Text × Time)
  building : Bool
  inContainerLog : Bool
  stepDetails : List (Text × List Text)
  agentErrors : List Text
  quotedAgent : Option Text
  quotedError : Option Text
  quotedException : Option Text

def PhaseTracker.empty : PhaseTracker where
  spinner := none
  replicasTotal := 0
  replicasReady := []
  openSteps := []
  building := false
  inContainerLog := false
  stepDetails := []
  agentErrors := []
  quotedAgent := none
  quotedError := none
  quotedException := none

/-- What a line shows: the message of the spinner, what is completed, and whether it is an error. -/
structure Progress where
  message : Option Text
  completed : Option Text
  isError : Bool

def Progress.nothing : Progress := ⟨none, none, false⟩

def Progress.error : Progress := ⟨none, none, true⟩

namespace PhaseTracker

variable (unicode : Unicode) (tracker : PhaseTracker)

def agentProgress : Text :=
  if tracker.replicasTotal = 0 then "Starting agents...".toList
  else "Starting agents (".toList ++ Nat.toDigits 10 tracker.replicasReady.length ++ ['/'] ++
    Nat.toDigits 10 tracker.replicasTotal ++ " ready)...".toList

/-- `_open_quote` -/
def openQuote (header : Text) : PhaseTracker :=
  { tracker with
    quotedAgent := some (((header.splitOnP isSpace).filter (· ≠ [])).headD "agent".toList)
    quotedError := none
    quotedException := none }

/-- `_quote` -/
def quote (payload : Text) : PhaseTracker :=
  if (literal "ERROR:" payload).isSome && tracker.quotedError.isNone then
    let error := if logMessage payload = [] then payload else logMessage payload
    { tracker with quotedError := some error }
  else if exceptionLine unicode payload then { tracker with quotedException := some payload }
  else tracker

/-- A text that is not empty. -/
def truthy (text : Option Text) : Option Text :=
  text.filter (· ≠ [])

/-- `_close_quote` -/
def closeQuote : PhaseTracker :=
  match (truthy tracker.quotedError).or (truthy tracker.quotedException) with
  | some error =>
      let agent := tracker.quotedAgent.getD "None".toList
      { tracker with agentErrors := tracker.agentErrors ++ [agent ++ ": ".toList ++ error] }
  | none => tracker

def addDetail (line : Text) : PhaseTracker :=
  match stepDetail unicode line with
  | some (step, detail) =>
      { tracker with stepDetails :=
          if (tracker.stepDetails.lookup step).isSome then
            tracker.stepDetails.map fun entry =>
              if entry.1 = step then (step, entry.2 ++ [detail]) else entry
          else tracker.stepDetails ++ [(step, [detail])] }
  | none => tracker

def trackSteps (now : Time) (line : Text) : PhaseTracker :=
  let opened :=
    match stepOpen unicode line with
    | some (step, name) =>
        if (tracker.openSteps.lookup step).isSome then tracker.openSteps
        else tracker.openSteps ++ [(step, name, now)]
    | none => tracker.openSteps
  let closed :=
    match stepClose unicode line with
    | some step => opened.filter fun entry => entry.1 ≠ step
    | none => opened
  if contains line "Build complete." then { tracker with openSteps := [], building := false }
  else { tracker with openSteps := closed }

def enterPhase (line : Text) : PhaseTracker × Progress :=
  match phases.find? fun phase => contains line phase.1 with
  | none => (tracker, .nothing)
  | some (_, spinner, done) =>
      let done := done.map String.toList
      match spinner.map String.toList with
      | some message =>
          if some message ≠ tracker.spinner && !tracker.building then
            ({ tracker with spinner := some message }, ⟨some message, done, false⟩)
          else (tracker, ⟨none, done, false⟩)
      | none => (tracker, ⟨none, done, false⟩)

/-- A line that is neither quoted nor an error. -/
def showProgress (now : Time) (line : Text) : PhaseTracker × Progress :=
  let tracker := tracker.trackSteps unicode now line
  match buildingCount unicode line with
  | some count =>
      let message := "Building ".toList ++ count ++ " images...".toList
      ({ tracker with building := true, spinner := some message }, ⟨some message, none, false⟩)
  | none =>
      match waitingCount unicode line with
      | some count =>
          let tracker := { tracker with replicasTotal := intOf unicode count }
          ({ tracker with spinner := some tracker.agentProgress },
            ⟨some tracker.agentProgress, none, false⟩)
      | none =>
          match readyReplica line with
          | some replica =>
              let tracker := { tracker with replicasReady := tracker.replicasReady.insert replica }
              ({ tracker with spinner := some tracker.agentProgress },
                ⟨some tracker.agentProgress, none, false⟩)
          | none => tracker.enterPhase line

def parseLine (now : Time) (line : Text) : PhaseTracker × Progress :=
  let message := logMessage line
  match literal containerLogBegin message with
  | some header => ({ tracker with inContainerLog := true }.openQuote header, .nothing)
  | none =>
      if (literal containerLogEnd message).isSome then
        ({ tracker with inContainerLog := false }.closeQuote, .nothing)
      else if tracker.inContainerLog then (tracker.quote unicode (strip message), .nothing)
      else
        let tracker := tracker.addDetail unicode line
        if benignErrorPrefixes.any (contains line ·) then (tracker, .nothing)
        else if errorMarkers.any (contains line ·) then (tracker, .error)
        else tracker.showProgress unicode now line

end PhaseTracker

/-! ### What the processes write -/

structure Replica where
  agentName : Text
  privateHost : Text
  hostPort : Text

/-- `FAILURE_LOG_TAIL_LINES` of a container, or why its log cannot be read. -/
abbrev LogTail := Except Text (List Text)

/-- The lines that `dump_container_log` copies. -/
def copied (replica : Replica) : LogTail → List Text
  | .ok [] => ["(the container produced no output)".toList]
  | .ok lines => lines
  | .error e => ["could not read the log of ".toList ++ replica.agentName ++ ": ".toList ++ e]

/-- A message as `logging.basicConfig` formats it. -/
def record (level logger : String) (message : Text) : Text :=
  level.toList ++ ':' :: (logger.toList ++ ':' :: message)

def warning : Text → Text :=
  record "WARNING" "canyonos_core.controller.utils.container_log"

def beginMessage (replica : Replica) (status : Text) : Text :=
  containerLogBegin.toList ++ " ".toList ++ replica.agentName ++ " (".toList ++
    replica.privateHost ++ ":".toList ++ replica.hostPort ++ ") status=".toList ++
    (if status = [] then "unknown".toList else status) ++ " ---".toList

def endMessage (replica : Replica) : Text :=
  containerLogEnd.toList ++ " ".toList ++ replica.agentName ++ " ---".toList

/-- The lines in which a record is read: each of the line breaks ends one. -/
def readLines : Text → List Text
  | [] => [['\n']]
  | '\r' :: '\n' :: text => ['\n'] :: readLines text
  | char :: text =>
      if char = '\n' || char = '\r' then ['\n'] :: readLines text
      else
        match readLines text with
        | [] => [[char]]
        | line :: lines => (char :: line) :: lines

/-- A line of the output; one that a process logs itself, outside of its dumps, is its own. -/
structure Line where
  own : Bool
  text : Text

inductive Process where
  | globalController
  | reconciler
  deriving DecidableEq

inductive Item where
  | own (line : Text)
  | dump (replica : Replica) (status : Text) (tail : LogTail)

def dumpLines (replica : Replica) (status : Text) (tail : LogTail) : List Text :=
  readLines (warning (beginMessage replica status)) ++
    (copied replica tail).flatMap (fun line => readLines (warning ("  ".toList ++ line))) ++
    readLines (warning (endMessage replica))

def Item.lines : Item → List Line
  | .own line => [⟨true, line⟩]
  | .dump replica status tail => (dumpLines replica status tail).map fun line => ⟨false, line⟩

/-- What the two processes write, and the order in which it comes. -/
structure Output where
  items : Process → List Item
  merged : List Line
  merges : Merges (fun process => (items process).flatMap Item.lines) merged

/-! ### What the tracker must report -/

/-- An error marker and no benign prefix. -/
def failing (line : Text) : Bool :=
  errorMarkers.any (contains line ·) && !benignErrorPrefixes.any (contains line ·)

section Reports

variable (unicode : Unicode)

/-- Which lines are reported as errors, read one after the other at the times given. -/
def reports : PhaseTracker → List Time → List Text → List Bool
  | tracker, now :: times, line :: lines =>
      (tracker.parseLine unicode now line).2.isError ::
        reports (tracker.parseLine unicode now line).1 times lines
  | _, _, _ => []

/-- The errors are what fails among the lines that the processes log themselves. -/
def ReportsOwn (output : Output) : Prop :=
  ∀ times : List Time, times.length = output.merged.length →
    reports unicode .empty times (output.merged.map Line.text) =
      output.merged.map fun line => line.own && failing line.text

end Reports

inductive Bracket where
  | start
  | stop
  deriving DecidableEq

/-- The start or the end of a block, by the message of a line. -/
def bracket (line : Text) : Option Bracket :=
  match literal containerLogBegin (logMessage line) with
  | some _ => some .start
  | none => if (literal containerLogEnd (logMessage line)).isSome then some .stop else none

/-- Of the start and end lines, whoever wrote them, the last is a start line. -/
def Open (lines : List Line) : Prop :=
  (lines.filterMap fun line => bracket line.text).getLast? = some .start

/-- An own line that fails comes outside of the blocks, and starts or ends none; a failing line of a
container comes in a block. -/
def Placed (before : List Line) (line : Line) : Prop :=
  failing line.text = true →
    if line.own then bracket line.text = none ∧ ¬ Open before
    else (bracket line.text).isSome = true ∨ Open before

def HoldsWhen (output : Output) : Prop :=
  ∀ before line after, output.merged = before ++ line :: after → Placed before line

/-! ### One line -/

namespace PhaseTracker

variable (unicode : Unicode) (tracker : PhaseTracker) (now : Time) (line : Text)

theorem inContainerLog_quote :
    (tracker.quote unicode line).inContainerLog = tracker.inContainerLog := by
  unfold quote
  split_ifs <;> rfl

theorem inContainerLog_closeQuote :
    tracker.closeQuote.inContainerLog = tracker.inContainerLog := by
  unfold closeQuote
  split <;> rfl

theorem inContainerLog_addDetail :
    (tracker.addDetail unicode line).inContainerLog = tracker.inContainerLog := by
  unfold addDetail
  split <;> rfl

theorem inContainerLog_trackSteps :
    (tracker.trackSteps unicode now line).inContainerLog = tracker.inContainerLog := by
  unfold trackSteps
  dsimp only
  split_ifs <;> rfl

theorem enterPhase_spec : (tracker.enterPhase line).1.inContainerLog = tracker.inContainerLog ∧
    (tracker.enterPhase line).2.isError = false := by
  unfold enterPhase
  cases phases.find? fun phase => contains line phase.1 with
  | none => exact ⟨rfl, rfl⟩
  | some phase =>
      obtain ⟨marker, spinner, done⟩ := phase
      cases spinner with
      | none => exact ⟨rfl, rfl⟩
      | some message =>
          dsimp only [Option.map_some]
          split_ifs <;> exact ⟨rfl, rfl⟩

theorem showProgress_spec :
    (tracker.showProgress unicode now line).1.inContainerLog = tracker.inContainerLog ∧
      (tracker.showProgress unicode now line).2.isError = false := by
  rw [← inContainerLog_trackSteps unicode tracker now line]
  unfold showProgress
  dsimp only
  generalize tracker.trackSteps unicode now line = tracker
  cases buildingCount unicode line with
  | some count => exact ⟨rfl, rfl⟩
  | none =>
      cases waitingCount unicode line with
      | some count => exact ⟨rfl, rfl⟩
      | none =>
          cases readyReplica line with
          | some replica => exact ⟨rfl, rfl⟩
          | none => exact tracker.enterPhase_spec line

/-- A start line opens the block, an end line closes it, and no other line does either. -/
theorem inContainerLog_parseLine : (tracker.parseLine unicode now line).1.inContainerLog =
    ((bracket line).map fun bracket => decide (bracket = .start)).getD tracker.inContainerLog := by
  unfold parseLine bracket
  dsimp only
  cases literal containerLogBegin (logMessage line) with
  | some header => rfl
  | none =>
      dsimp only
      split_ifs with hstop hquoted hbenign hfailing
      · exact (inContainerLog_closeQuote _).trans rfl
      · exact inContainerLog_quote unicode tracker _
      · exact inContainerLog_addDetail unicode tracker line
      · exact inContainerLog_addDetail unicode tracker line
      · rw [(showProgress_spec unicode _ now line).1]
        exact inContainerLog_addDetail unicode tracker line

/-- An error is a failing line outside of a block. -/
theorem isError_parseLine : (tracker.parseLine unicode now line).2.isError =
    ((bracket line).isNone && !tracker.inContainerLog && failing line) := by
  unfold parseLine bracket failing
  dsimp only
  cases literal containerLogBegin (logMessage line) with
  | some header => rfl
  | none =>
      dsimp only
      split_ifs with hstop hquoted hbenign hfailing
      · rfl
      · rw [hquoted]
        rfl
      · rw [hbenign, Bool.not_true, Bool.and_false, Bool.and_false]
        rfl
      · rw [hfailing, eq_false_of_ne_true hbenign, eq_false_of_ne_true hquoted]
        rfl
      · rw [(showProgress_spec unicode _ now line).2, eq_false_of_ne_true hfailing,
          Bool.false_and, Bool.and_false]

end PhaseTracker

/-! ### All lines -/

theorem not_open_nil : ¬ Open [] := by
  intro hopen
  cases hopen

theorem open_concat (before : List Line) (line : Line) : Open (before ++ [line]) ↔
    ((bracket line.text).map fun bracket => bracket = .start).getD (Open before) := by
  unfold Open
  rw [List.filterMap_append, List.filterMap_cons, List.filterMap_nil]
  cases bracket line.text with
  | none => rw [List.append_nil, Option.map_none, Option.getD_none]
  | some bracket =>
      rw [List.getLast?_concat, Option.map_some, Option.getD_some, Option.some_inj]

section Run

variable (unicode : Unicode)

theorem placed_iff {tracker : PhaseTracker} {before : List Line}
    (hopen : tracker.inContainerLog = true ↔ Open before) (now : Time) (line : Line) :
    (tracker.parseLine unicode now line.text).2.isError = (line.own && failing line.text) ↔
      Placed before line := by
  rw [PhaseTracker.isError_parseLine]
  unfold Placed
  rw [← hopen]
  cases failing line.text <;> cases line.own <;> cases tracker.inContainerLog <;>
    cases bracket line.text <;> simp

/-- The reports are right when each line is where it can be. -/
theorem reports_eq_iff (lines : List Line) (times : List Time)
    (hlength : times.length = lines.length) (tracker : PhaseTracker) (seen : List Line)
    (hopen : tracker.inContainerLog = true ↔ Open seen) :
    reports unicode tracker times (lines.map Line.text) =
        lines.map (fun line => line.own && failing line.text) ↔
      ∀ before line after, lines = before ++ line :: after → Placed (seen ++ before) line := by
  induction lines generalizing times tracker seen with
  | nil =>
      cases times with
      | cons now times => cases hlength
      | nil =>
          refine iff_of_true rfl fun before line after heq => ?_
          exact absurd heq.symm (List.append_ne_nil_of_right_ne_nil before (List.cons_ne_nil _ _))
  | cons line lines ih =>
      cases times with
      | nil => cases hlength
      | cons now times =>
          have hnext : (tracker.parseLine unicode now line.text).1.inContainerLog = true ↔
              Open (seen ++ [line]) := by
            rw [open_concat, PhaseTracker.inContainerLog_parseLine]
            cases bracket line.text with
            | none => exact hopen
            | some bracket => exact decide_eq_true_iff
          have htail := ih times (Nat.succ_injective hlength) _ (seen ++ [line]) hnext
          rw [List.map_cons, List.map_cons, reports, List.cons.injEq, placed_iff unicode hopen,
            htail]
          constructor
          · rintro ⟨hhead, hrest⟩ before other after heq
            cases before with
            | nil =>
                obtain ⟨rfl, rfl⟩ := List.cons.inj heq
                rw [List.append_nil]
                exact hhead
            | cons first before =>
                obtain ⟨rfl, hafter⟩ := List.cons.inj heq
                have hplaced := hrest before other after hafter
                rw [List.append_assoc] at hplaced
                exact hplaced
          · intro hall
            refine ⟨?_, fun before other after heq => ?_⟩
            · have hhead := hall [] line lines rfl
              rw [List.append_nil] at hhead
              exact hhead
            · rw [List.append_assoc]
              exact hall (line :: before) other after (congrArg (line :: ·) heq)

/-- The errors of the processes are reported, and nothing else, when no failing line comes in a
block that is not its own or after the end of one. -/
theorem reportsOwn_iff (output : Output) :
    ReportsOwn unicode output ↔ HoldsWhen output := by
  have hopen : PhaseTracker.empty.inContainerLog = true ↔ Open [] :=
    iff_of_false Bool.false_ne_true not_open_nil
  constructor
  · intro hreports
    have hlength : (List.replicate output.merged.length (0 : Time)).length = output.merged.length :=
      List.length_replicate
    exact (reports_eq_iff unicode output.merged _ hlength _ [] hopen).mp (hreports _ hlength)
  · intro hholds times hlength
    exact (reports_eq_iff unicode output.merged times hlength _ [] hopen).mpr hholds

end Run

/-! ### Dumps that do not overlap -/

/-- The line breaks. -/
def isBreak (char : Char) : Bool :=
  char = '\n' || char = '\r'

theorem readLines_eq {text : Text} (hbreak : ∀ char ∈ text, isBreak char = false) :
    readLines text = [text ++ ['\n']] := by
  induction text with
  | nil => rfl
  | cons char text ih =>
      obtain ⟨hchar, htext⟩ := List.forall_mem_cons.mp hbreak
      have hne : char ≠ '\r' := fun heq => by
        rw [heq] at hchar
        exact absurd hchar (by decide)
      rw [readLines.eq_3 char text (fun rest heq => absurd heq hne), ih htext]
      unfold isBreak at hchar
      rw [hchar]
      rfl

theorem many1_append {accepts : Char → Bool} {part : Text} (hne : part ≠ [])
    (hpart : ∀ char ∈ part, accepts char = true) {char : Char} (hchar : accepts char = false)
    (rest : Text) : many1 accepts (part ++ char :: rest) = some (part, char :: rest) := by
  have htake : (part ++ char :: rest).takeWhile accepts = part := by
    rw [List.takeWhile_append_of_pos hpart, List.takeWhile_cons_of_neg (by simp [hchar]),
      List.append_nil]
  have hdrop : (part ++ char :: rest).dropWhile accepts = char :: rest := by
    rw [List.dropWhile_append_of_pos hpart, List.dropWhile_cons_of_neg (by simp [hchar])]
  unfold many1
  rw [htake, hdrop, if_neg (by simpa using hne)]

theorem literal_append (expected : String) (rest : Text) :
    literal expected (expected.toList ++ rest) = some rest := by
  unfold literal
  rw [List.dropPrefix?_eq_some_iff]
  exact ⟨expected.toList, rfl, beq_self_eq_true _⟩

theorem logMessage_warning (message : Text) :
    logMessage (warning message) = restOfLine message := by
  have hupper : "WARNING".toList.all (fun char => 'A' ≤ char && char ≤ 'Z') = true := by
    decide +kernel
  have hname : "canyonos_core.controller.utils.container_log".toList.all
      (fun char => !isSpace char && char != ':') = true := by
    decide +kernel
  have hlevel (rest : Text) := @many1_append _ _ (by decide +kernel)
    (List.all_eq_true.mp hupper) ':' (by decide +kernel) rest
  have hlogger (rest : Text) := @many1_append _ _ (by decide +kernel)
    (List.all_eq_true.mp hname) ':' (by decide +kernel) rest
  have hcolon (rest : Text) : literal ":" (':' :: rest) = some rest := literal_append ":" rest
  have hline : logLine (warning message) = some (restOfLine message) := by
    unfold logLine warning record
    simp only [hlevel, hcolon, hlogger, Option.bind_eq_bind, Option.bind_some]
  rw [logMessage, hline, Option.getD_some]

theorem bracket_indented (message : Text) : bracket (warning (' ' :: ' ' :: message)) = none := by
  unfold bracket
  rw [logMessage_warning]
  rfl

theorem bracket_begin (replica : Replica) (status : Text) :
    bracket (warning (beginMessage replica status ++ ['\n'])) = some .start := by
  unfold bracket
  rw [logMessage_warning]
  rfl

theorem bracket_end (replica : Replica) :
    bracket (warning (endMessage replica ++ ['\n'])) = some .stop := by
  unfold bracket
  rw [logMessage_warning]
  rfl

/-- An item whose own line, or whose copied lines, are no start or end lines. -/
inductive Item.Plain : Item → Prop
  | own {line : Text} (hline : bracket line = none) : Plain (.own line)
  | dump {replica : Replica} {status : Text} {tail : LogTail}
      (hbegin : ∀ char ∈ beginMessage replica status, isBreak char = false)
      (hend : ∀ char ∈ endMessage replica, isBreak char = false)
      (hcopied : ∀ message ∈ copied replica tail,
        ∀ line ∈ readLines (warning ("  ".toList ++ message)), bracket line = none) :
      Plain (.dump replica status tail)

theorem readLines_warning {message : Text} (hbreak : ∀ char ∈ message, isBreak char = false) :
    readLines (warning message) = [warning (message ++ ['\n'])] := by
  have hempty : (warning []).any isBreak = false := by decide +kernel
  have hwarning (text : Text) : warning text = warning [] ++ text := by
    simp [warning, record]
  rw [readLines_eq, hwarning (message ++ ['\n']), hwarning message, List.append_assoc]
  rw [hwarning message]
  intro char hmem
  rcases List.mem_append.mp hmem with hprefixed | hmessage
  · simpa using List.any_eq_false.mp hempty char hprefixed
  · exact hbreak char hmessage

/-- A line of a container, which `splitlines` leaves without line breaks, is no end line. -/
theorem bracket_copied {message : Text} (hbreak : ∀ char ∈ message, isBreak char = false) :
    ∀ line ∈ readLines (warning ("  ".toList ++ message)), bracket line = none := by
  intro line hline
  have hindented : ∀ char ∈ "  ".toList ++ message, isBreak char = false := by
    intro char hmem
    rcases List.mem_append.mp hmem with hspace | hmessage
    · have hspaces : "  ".toList.any isBreak = false := by decide
      simpa using List.any_eq_false.mp hspaces char hspace
    · exact hbreak char hmessage
  rw [readLines_warning hindented] at hline
  rw [List.mem_singleton.mp hline]
  exact bracket_indented (message ++ ['\n'])

theorem filterMap_bracket_eq_nil {lines : List Line}
    (hlines : ∀ line ∈ lines, bracket line.text = none) :
    lines.filterMap (fun line => bracket line.text) = [] :=
  List.filterMap_eq_nil_iff.mpr hlines

/-- A block whose copied lines neither start nor end one: each is in the open block, and the block
is closed after it. -/
theorem placed_of_block {first last : Line} {copies : List Line}
    (hfirst : bracket first.text = some .start) (hlast : bracket last.text = some .stop)
    (hcopies : ∀ line ∈ copies, bracket line.text = none)
    (hown : ∀ line ∈ first :: (copies ++ [last]), line.own = false) (seen : List Line) :
    (∀ before line after, first :: (copies ++ [last]) = before ++ line :: after →
      Placed (seen ++ before) line) ∧ ¬ Open (seen ++ first :: (copies ++ [last])) := by
  constructor
  · intro before line after heq _
    have hline : line ∈ first :: (copies ++ [last]) := by
      rw [heq]
      exact List.mem_append_right before List.mem_cons_self
    rw [hown line hline, if_neg Bool.false_ne_true]
    cases before with
    | nil =>
        obtain ⟨rfl, -⟩ := List.cons.inj heq
        exact .inl (hfirst ▸ rfl)
    | cons head before =>
        obtain ⟨rfl, htail⟩ := List.cons.inj heq
        change copies ++ [last] = before ++ line :: after at htail
        right
        -- what comes before the line is the start line and some of the copies
        have hcopied : before <+: copies := by
          refine List.prefix_of_prefix_length_le ⟨line :: after, htail.symm⟩
            (List.prefix_append copies [last]) ?_
          have hlength : copies.length + 1 = before.length + (after.length + 1) := by
            have hlength := congrArg List.length htail
            rw [List.length_append, List.length_append] at hlength
            exact hlength
          omega
        have hnone := filterMap_bracket_eq_nil fun line hmem => hcopies line (hcopied.subset hmem)
        unfold Open
        rw [List.filterMap_append, List.filterMap_cons, hfirst, hnone]
        exact List.getLast?_concat
  · rw [← List.cons_append, ← List.append_assoc, open_concat, hlast]
    exact Bracket.noConfusion

theorem Item.lines_dump {replica : Replica} {status : Text} (tail : LogTail)
    (hbegin : ∀ char ∈ beginMessage replica status, isBreak char = false)
    (hend : ∀ char ∈ endMessage replica, isBreak char = false) :
    (Item.dump replica status tail).lines =
      ⟨false, warning (beginMessage replica status ++ ['\n'])⟩ ::
        (((copied replica tail).flatMap fun line => readLines (warning ("  ".toList ++ line))).map
          (fun line => ⟨false, line⟩) ++ [⟨false, warning (endMessage replica ++ ['\n'])⟩]) := by
  rw [Item.lines, dumpLines, readLines_warning hbegin, readLines_warning hend, List.map_append,
    List.map_append]
  rfl

/-- The lines of an item, from outside of a block to outside. -/
theorem placed_of_plain {item : Item} (hplain : item.Plain) {seen : List Line}
    (hseen : ¬ Open seen) :
    (∀ before line after, item.lines = before ++ line :: after → Placed (seen ++ before) line) ∧
      ¬ Open (seen ++ item.lines) := by
  cases hplain with
  | @own text hline =>
      refine ⟨fun before line after heq => ?_, ?_⟩
      · obtain ⟨rfl, rfl, -⟩ : before = [] ∧ line = ⟨true, text⟩ ∧ after = [] := by
          cases before with
          | nil => simpa [Item.lines, eq_comm] using heq
          | cons first before => simp [Item.lines] at heq
        rw [List.append_nil]
        exact fun _ => ⟨hline, hseen⟩
      · rw [Item.lines, open_concat, hline]
        exact hseen
  | dump hbegin hend hcopied =>
      rw [Item.lines_dump _ hbegin hend]
      refine placed_of_block (bracket_begin _ _) (bracket_end _) ?_ ?_ seen
      · intro line hline
        obtain ⟨text, htext, rfl⟩ := List.mem_map.mp hline
        obtain ⟨message, hmessage, hmem⟩ := List.mem_flatMap.mp htext
        exact hcopied message hmessage text hmem
      · rw [← Item.lines_dump _ hbegin hend]
        intro line hline
        obtain ⟨text, -, rfl⟩ := List.mem_map.mp hline
        rfl

theorem placed_of_whole (items : List Item) (hplain : ∀ item ∈ items, item.Plain)
    {seen : List Line} (hseen : ¬ Open seen) :
    ∀ before line after, items.flatMap Item.lines = before ++ line :: after →
      Placed (seen ++ before) line := by
  induction items generalizing seen with
  | nil =>
      intro before line after heq
      exact absurd heq.symm (List.append_ne_nil_of_right_ne_nil before (List.cons_ne_nil _ _))
  | cons item items ih =>
      intro before line after heq
      obtain ⟨hitem, hitems⟩ := List.forall_mem_cons.mp hplain
      obtain ⟨hplaced, hclosed⟩ := placed_of_plain hitem hseen
      rw [List.flatMap_cons] at heq
      obtain ⟨rest, rfl, hrest⟩ | ⟨rest, hrest, heq⟩ := List.append_eq_append_iff.mp heq
      · rw [← List.append_assoc]
        exact ih hitems hclosed rest line after hrest
      · cases rest with
        | nil =>
            rw [List.append_nil] at hrest
            have hnext := ih hitems hclosed [] line after heq.symm
            rw [List.append_nil, hrest] at hnext
            exact hnext
        | cons head rest =>
            obtain ⟨rfl, -⟩ := List.cons.inj heq
            exact hplaced before line rest hrest

/-- Dumps that come whole, between own lines of both processes, hide and report nothing wrongly. -/
theorem holdsWhen_of_whole {output : Output} (items : List Item)
    (hplain : ∀ item ∈ items, item.Plain) (hmerged : output.merged = items.flatMap Item.lines) :
    HoldsWhen output := by
  intro before line after heq
  rw [hmerged] at heq
  exact placed_of_whole items hplain not_open_nil before line after heq

/-! ### Two dumps at a time -/

def ascii : Unicode where
  decimal? char := if char.isDigit then some (char.toNat - 48) else none
  isWord char := char.isAlphanum || char = '_'

def broken : Replica :=
  ⟨"Broken".toList, "127.0.0.1".toList, "50051".toList⟩

def echo : Replica :=
  ⟨"Echo".toList, "127.0.0.1".toList, "50052".toList⟩

def brokenLines : List Line :=
  (Item.dump broken "failed".toList
    (.ok ["Traceback (most recent call last):".toList])).lines

def echoLines : List Line :=
  (Item.dump echo "failed".toList (.ok ["ok".toList])).lines

/-- The reconciler's dump, with one of the global controller after its start line. -/
def overlapping : Output where
  items
    | .globalController => [.dump echo "failed".toList (.ok ["ok".toList])]
    | .reconciler =>
        [.dump broken "failed".toList (.ok ["Traceback (most recent call last):".toList])]
  merged := brokenLines.take 1 ++ echoLines ++ brokenLines.drop 1
  merges := by
    refine ⟨(brokenLines.take 1).map (Process.reconciler, ·) ++
      echoLines.map (Process.globalController, ·) ++
        (brokenLines.drop 1).map (Process.reconciler, ·), ?_, fun process => ?_⟩
    · simp [Function.comp_def]
    · rw [itemsOf_append, itemsOf_append]
      cases process with
      | globalController =>
          rw [itemsOf_tag_of_ne (by decide), itemsOf_tag_self, itemsOf_tag_of_ne (by decide),
            List.nil_append, List.append_nil]
          exact (List.append_nil _).symm
      | reconciler =>
          rw [itemsOf_tag_self, itemsOf_tag_of_ne (by decide), itemsOf_tag_self, List.append_nil,
            List.take_append_drop]
          exact (List.append_nil _).symm

/-- The end of one dump uncovers the traceback in the other. -/
theorem not_reportsOwn_overlapping : ¬ ReportsOwn ascii overlapping := by
  intro hreports
  have hreported := hreports (List.replicate overlapping.merged.length 0) List.length_replicate
  revert hreported
  decide +kernel

end CanyonOS.ContainerLogs
