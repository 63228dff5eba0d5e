import CanyonOS.Lib.Interference
import CanyonOS.Telemetry.Traces
import Mathlib.Data.List.Dedup
import Mathlib.Logic.Function.Basic

/-!
# Delivering completed requests

`deliver_completed_requests` reads a request's futures from every machine, queues their rows, reads
again which futures the request has, and only then marks it. Calls go on meanwhile: the steps of
the others are theirs, and the cleanup's that gives a marker its expiry.
-/

namespace CanyonOS.Telemetry

open Interference

/-- An id in a set of ids. No writer adds an empty one. -/
abbrev Id := {id : String // id ≠ ""}

/-- The keys of every machine's Redis that a request's delivery reads and writes. -/
structure Stores (Machine : Type) where
  /-- `request:<id>:futures` -/
  futures : Machine → Id → List Id
  future : Machine → Id → Record
  /-- `telemetry:delivered:<id>`, with the end of its time to live when it has one -/
  marker : Machine → Id → Option (Option Time)

inductive Event (Machine : Type) where
  /-- `SMEMBERS` of a request's futures -/
  | listed (machine : Machine) (requestId : Id) (futures : List Id)
  | read (machine : Machine) (futureId : Id) (record : Record)
  /-- the SQLite transaction of these rows -/
  | committed (rows : List TraceRow)
  /-- a marker was created -/
  | marked (machine : Machine) (requestId : Id)
  /-- a marker was given its expiry -/
  | expires (machine : Machine) (requestId : Id) (time : Time)

structure Delivery (Machine : Type) extends Stores Machine where
  /-- `traces_waiting` -/
  queue : FutureId → Option WaitingRow
  log : List (Event Machine) := []

variable {Machine : Type} [DecidableEq Machine]

/-- What goes on meanwhile. -/
inductive CallStep (Machine : Type) where
  | addFuture (machine : Machine) (requestId futureId : Id)
  | write (machine : Machine) (futureId : Id) (fields : Record)
  /-- `EXPIRE NX` on the marker -/
  | expireMarker (machine : Machine) (requestId : Id) (time : Time)

namespace Delivery

def addFuture (delivery : Delivery Machine) (machine : Machine) (requestId futureId : Id) :
    Delivery Machine :=
  { delivery with
    futures := Function.update delivery.futures machine
      (Function.update (delivery.futures machine) requestId
        ((delivery.futures machine requestId).insert futureId)) }

def hset (delivery : Delivery Machine) (machine : Machine) (futureId : Id) (fields : Record) :
    Delivery Machine :=
  { delivery with
    future := Function.update delivery.future machine
      (Function.update (delivery.future machine) futureId
        ((delivery.future machine futureId).hsetMultiple fields)) }

def setMarker (delivery : Delivery Machine) (machine : Machine) (requestId : Id)
    (expiry : Option Time) : Delivery Machine :=
  { delivery with
    marker := Function.update delivery.marker machine
      (Function.update (delivery.marker machine) requestId (some expiry)) }

def record (delivery : Delivery Machine) (event : Event Machine) : Delivery Machine :=
  { delivery with log := delivery.log ++ [event] }

def advance (delivery : Delivery Machine) : CallStep Machine → Delivery Machine
  | .addFuture machine requestId futureId => delivery.addFuture machine requestId futureId
  | .write machine futureId fields => delivery.hset machine futureId fields
  | .expireMarker machine requestId time =>
      match delivery.marker machine requestId with
      | some none =>
          (delivery.setMarker machine requestId (some time)).record
            (.expires machine requestId time)
      | _ => delivery

end Delivery

abbrev DeliveryProgram (Machine : Type) [DecidableEq Machine] (α : Type) :=
  Program (Delivery Machine) (CallStep Machine) α

/-! ### The commands -/

def smembers (machine : Machine) (requestId : Id) : DeliveryProgram Machine (List Id) :=
  command Delivery.advance fun delivery =>
    (delivery.futures machine requestId,
      delivery.record (.listed machine requestId (delivery.futures machine requestId)))

def hgetall (machine : Machine) (futureId : Id) : DeliveryProgram Machine Record :=
  command Delivery.advance fun delivery =>
    (delivery.future machine futureId,
      delivery.record (.read machine futureId (delivery.future machine futureId)))

def getMarker (machine : Machine) (requestId : Id) : DeliveryProgram Machine Bool :=
  command Delivery.advance fun delivery => ((delivery.marker machine requestId).isSome, delivery)

/-- `SET NX` -/
def markDelivered (machine : Machine) (requestId : Id) : DeliveryProgram Machine Unit :=
  command Delivery.advance fun delivery =>
    match delivery.marker machine requestId with
    | some _ => ((), delivery)
    | none =>
        ((), (delivery.setMarker machine requestId none).record (.marked machine requestId))

/-- `_trace_write_rows`, in the transaction it makes. -/
def traceWriteRows (rows : List TraceRow) (queue : FutureId → Option WaitingRow) :
    FutureId → Option WaitingRow :=
  rows.foldl (fun queue row =>
    Function.update queue row.futureId (some (tracesUpsert (queue row.futureId) row))) queue

variable (normalizeJsonText : String → String) (projectId : Option String)

/-- `_queue_rows`. Of its two transactions, the one for the logs is left out: it writes nothing
read here, and when it fails it is as if the next command did. -/
def queueRows (rows : List (Id × Record)) : DeliveryProgram Machine Unit :=
  if rows = [] then pure ()
  else
    command Delivery.advance fun delivery =>
      let traces := rows.filterMap fun row => traceRow normalizeJsonText projectId row.1 row.2
      ((), { delivery with queue := traceWriteRows traces delivery.queue }.record
        (.committed traces))

/-! ### The pass -/

/-- `_is_finished` -/
def IsFinished (record : Record) : Prop :=
  record.finishedAt.isSome ∨ record.failed = some true

instance (record : Record) : Decidable (IsFinished record) := inferInstanceAs (Decidable (_ ∨ _))

/-- `row["future_id"]` -/
def rowId (key : FutureId) (record : Record) : FutureId :=
  (orElse record.id (some key)).getD ""

def futuresOf (machines : List Machine) (requests : List Id) :
    DeliveryProgram Machine (Id → List Id) := do
  let mut expected : Id → List Id := fun _ => []
  for machine in machines do
    for requestId in requests do
      let futures ← smembers machine requestId
      expected := Function.update expected requestId (expected requestId ∪ futures)
  return expected

/-- Whether every machine has the marker, asking no further than the first that has not. -/
def markedEverywhere (requestId : Id) : List Machine → DeliveryProgram Machine Bool
  | [] => return true
  | machine :: machines => do
      if ← getMarker machine requestId then markedEverywhere requestId machines else return false

def markedRequests (machines : List Machine) (requestIds : List Id) :
    DeliveryProgram Machine (List Id) := do
  let mut marked : List Id := []
  for requestId in requestIds do
    let everywhere ← markedEverywhere requestId machines
    marked := if everywhere then marked ++ [requestId] else marked
  return marked

def wantedFutures (machines : List Machine) (pending : List Id) :
    DeliveryProgram Machine (List Id) := do
  if pending = [] then return []
  let expected ← futuresOf machines pending
  return (pending.flatMap expected).dedup

/-- `_read_futures` -/
def readFutures (machine : Machine) (futureIds : List Id) :
    DeliveryProgram Machine (List (Id × Record)) := do
  let mut rows : List (Id × Record) := []
  for futureId in futureIds do
    let record ← hgetall machine futureId
    rows := if record = {} then rows else rows ++ [(futureId, record)]
  return rows

/-- What one machine's rows add to the terminal futures of each pending request. -/
def finishedIn (pending : List Id) (rows : List (Id × Record)) (requestId : Id) : List FutureId :=
  (rows.filter fun row =>
    row.2.requestId = some requestId.val ∧ requestId ∈ pending ∧ IsFinished row.2).map fun row =>
      rowId row.1.val row.2

def queueFutures (machines : List Machine) (pending wanted : List Id) :
    DeliveryProgram Machine (Id → List FutureId) := do
  let mut terminal : Id → List FutureId := fun _ => []
  for machine in machines do
    let rows ← readFutures machine wanted
    queueRows normalizeJsonText projectId rows
    terminal := fun requestId => terminal requestId ++ finishedIn pending rows requestId
  return terminal

def markAll (machines : List Machine) (delivered : List Id) : DeliveryProgram Machine Unit := do
  for machine in machines do
    for requestId in delivered do
      markDelivered machine requestId

/-- `deliver_completed_requests`: the requests delivered and the requests gone. A Python set is a
list without repetitions, in any order. -/
def deliverCompletedRequests (machines : List Machine) (requestIds : List Id) :
    DeliveryProgram Machine (List Id × List Id) := do
  let requestIds := requestIds.dedup
  if requestIds = [] then return ([], [])
  let marked ← markedRequests machines requestIds
  let pending := requestIds.filter (· ∉ marked)
  let wanted ← wantedFutures machines pending
  let terminal ← queueFutures normalizeJsonText projectId machines pending wanted
  let expected ← futuresOf machines requestIds
  let gone := requestIds.filter fun requestId => expected requestId = []
  let delivered := requestIds.filter fun requestId =>
    requestId ∉ gone ∧
      (requestId ∈ marked ∨ ∀ futureId ∈ expected requestId, futureId.val ∈ terminal requestId)
  markAll machines delivered
  return (delivered, gone)

/-! ### What the log of a pass says -/

/-- Neither a read nor a write of a future's row. -/
def Event.Later : Event Machine → Prop
  | .read _ _ _ | .committed _ => False
  | .listed _ _ _ | .marked _ _ | .expires _ _ _ => True

/-- A finished record of the future was read, and then its row was committed. -/
def Queued (log : List (Event Machine)) (requestId futureId : Id) : Prop :=
  ∃ before after rows, log = before ++ .committed rows :: after ∧
    ∃ machine key record row, .read machine key record ∈ before ∧ IsFinished record ∧
      traceRow normalizeJsonText projectId key.val record = some row ∧ row ∈ rows ∧
      row.sessionId = requestId.val ∧ row.futureId = futureId.val

/-- After the last row was written every machine was asked for the request's futures, and each one
it listed is settled by what was written before. -/
def Reread (machines : List Machine) (log : List (Event Machine)) (requestId : Id)
    (settled : List (Event Machine) → Id → Prop) : Prop :=
  ∃ written reread, log = written ++ reread ∧ (∀ event ∈ reread, event.Later) ∧
    (∀ machine ∈ machines, ∃ futures, .listed machine requestId futures ∈ reread) ∧
    ∀ machine futures, .listed machine requestId futures ∈ reread →
      ∀ futureId ∈ futures, settled written futureId

/-- A marker is created only when every future of its request is queued. -/
def MarksSound (machines : List Machine) (log : List (Event Machine)) : Prop :=
  ∀ before after machine requestId, log = before ++ .marked machine requestId :: after →
    Reread machines before requestId fun written futureId =>
      Queued normalizeJsonText projectId written requestId futureId

/-- The markers there were, and the expiries they had or were given, are still there; the other
markers were created by this pass. -/
structure MarkersKept (initial : Stores Machine) (delivery : Delivery Machine) : Prop where
  marker : ∀ machine requestId, (initial.marker machine requestId).isSome →
    (delivery.marker machine requestId).isSome
  expiry : ∀ machine requestId time, initial.marker machine requestId = some (some time) →
    delivery.marker machine requestId = some (some time)
  expires : ∀ machine requestId time, .expires machine requestId time ∈ delivery.log →
    delivery.marker machine requestId = some (some time)
  created : ∀ machine requestId, (delivery.marker machine requestId).isSome →
    (initial.marker machine requestId).isSome ∨ .marked machine requestId ∈ delivery.log

end CanyonOS.Telemetry
