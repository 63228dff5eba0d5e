import CanyonOS.Usage.Event

/-!
# Delivery of usage events

The outbox, sent oldest first in batches that the usage API stores or refuses as a whole. Reporting
stays on, the API answers and files can be removed.
-/

namespace CanyonOS.Usage

open CodePoints

def maxEventFileBytes : ℕ := 1024

/-- `MAX_EVENTS_PER_REQUEST` -/
def maxEventsPerRequest : ℕ := 25

def maxEventsPerBatch : ℕ := 25

def maxRequestBodyBytes : ℕ := 16 * 1024

/-- The JSON of the interpreter. How deep a text may be nested and how a float is written depend on
its version; the keys of a `dict` are distinct. -/
structure PythonJson where
  loads : List UInt8 → JsonValue.Loaded
  floatText : FloatValue → CodePoints
  distinct : ∀ bytes items, loads bytes = .value (.dict items) → (items.map Prod.fst).Nodup

/-- A file of the outbox, with no content where it cannot be read. -/
structure File where
  content : Option (List UInt8)

inductive Reading where
  | rejected
  | event (event : JsonValue)
  | raises

structure Scan where
  batch : List (File × JsonValue)
  /-- the files the batch does not have, which it did not discard either -/
  rest : List File
  raised : Bool

inductive Ending where
  | done
  | refused
  | raised
  | outOfFuel
deriving DecidableEq

structure Delivery where
  ending : Ending
  outbox : List File
  stored : List JsonValue

section Delivery

variable (python : PythonJson) (unicode : UnicodeData) (datetime : CodePoints → Bool)

/-- `_read_event`, which turns only some of the errors into a rejection. -/
def readEvent (file : File) : Reading :=
  match file.content with
  | none => .rejected
  | some content =>
      let raw := content.take (maxEventFileBytes + 1)
      match python.loads raw with
      | .valueError => .rejected
      | .recursionError => .raises
      | .value event =>
          if maxEventFileBytes < raw.length then .rejected
          else
            match isValidEvent unicode event with
            | none => .raises
            | some true => .event event
            | some false => .rejected

/-- `_next_batch` from the batch it has so far; what it rejects is discarded. -/
def nextBatchFrom (batch : List (File × JsonValue)) : List File → Scan
  | [] => { batch, rest := [], raised := false }
  | file :: files =>
      match readEvent python unicode file with
      | .rejected => nextBatchFrom batch files
      | .raises => { batch, rest := file :: files, raised := true }
      | .event event =>
          if (batch ++ [(file, event)]).length = maxEventsPerRequest then
            { batch := batch ++ [(file, event)], rest := files, raised := false }
          else nextBatchFrom (batch ++ [(file, event)]) files

def nextBatch (outbox : List File) : Scan :=
  nextBatchFrom python unicode [] outbox

def Scan.events (scan : Scan) : List JsonValue :=
  scan.batch.map Prod.snd

/-- What the batch leaves in the outbox while it is not stored. -/
def Scan.outbox (scan : Scan) : List File :=
  scan.batch.map Prod.fst ++ scan.rest

/-- `UsageEventBatchSchema` of the body's events. -/
def usageEventBatchSchema (events : List JsonValue) : Bool :=
  decide (1 ≤ events.length) && decide (events.length ≤ maxEventsPerBatch) &&
    events.all (usageEventSchema datetime)

def sendBody (events : List JsonValue) : CodePoints :=
  JsonValue.dumps python.floatText (.dict [(ofString "events", .list events)])

/-- `send_events` to an API that stores each batch it accepts; `none` where the body cannot be
encoded. -/
def sendEvents (events : List JsonValue) : Option Bool :=
  (encodeUtf8? (sendBody python events)).map fun bytes =>
    decide (bytes.length ≤ maxRequestBodyBytes) && usageEventBatchSchema datetime events

/-- `_deliver` -/
def deliver : ℕ → List JsonValue → List File → Delivery
  | 0, stored, outbox => { ending := .outOfFuel, outbox, stored }
  | fuel + 1, stored, outbox =>
      let scan := nextBatch python unicode outbox
      if scan.raised then { ending := .raised, outbox := scan.outbox, stored }
      else if scan.events.isEmpty then { ending := .done, outbox := scan.outbox, stored }
      else
        match sendEvents python datetime scan.events with
        | none => { ending := .raised, outbox := scan.outbox, stored }
        | some false => { ending := .refused, outbox := scan.outbox, stored }
        | some true => deliver fuel (stored ++ scan.events) scan.rest

/-- Each round but the last takes a file away. -/
def deliverPendingEvents (outbox : List File) : Delivery :=
  deliver python unicode datetime (outbox.length + 1) [] outbox

/-! ### What an outbox holds -/

/-- The valid events of the files. -/
def validEvents : List File → List JsonValue
  | [] => []
  | file :: files =>
      match readEvent python unicode file with
      | .event event => event :: validEvents files
      | _ => validEvents files

/-- Those before the first file that makes the check raise. -/
def readyEvents : List File → List JsonValue
  | [] => []
  | file :: files =>
      match readEvent python unicode file with
      | .rejected => readyEvents files
      | .raises => []
      | .event event => event :: readyEvents files

def raisesSome : List File → Bool
  | [] => false
  | file :: files =>
      match readEvent python unicode file with
      | .raises => true
      | _ => raisesSome files

end Delivery

/-! ### Batches -/

section Batches

variable {python : PythonJson} {unicode : UnicodeData}

/-- A batch that is not full has every event that is ready. -/
theorem nextBatchFrom_short {batch : List (File × JsonValue)} {files : List File}
    (hshort : batch.length + (readyEvents python unicode files).length < maxEventsPerRequest) :
    let scan := nextBatchFrom python unicode batch files
    scan.events = batch.map Prod.snd ++ readyEvents python unicode files ∧
      scan.raised = raisesSome python unicode files ∧
      (scan.raised = false → scan.rest = []) ∧
      validEvents python unicode files =
        readyEvents python unicode files ++ validEvents python unicode scan.rest := by
  induction files generalizing batch with
  | nil =>
      refine ⟨?_, rfl, fun _ => rfl, rfl⟩
      exact (List.append_nil _).symm
  | cons file files ih =>
      rw [nextBatchFrom, readyEvents, raisesSome, validEvents]
      rw [readyEvents] at hshort
      cases hread : readEvent python unicode file with
      | rejected =>
          rw [hread] at hshort
          exact ih hshort
      | raises =>
          refine ⟨?_, rfl, fun hraised => (by cases hraised), ?_⟩
          · exact (List.append_nil _).symm
          · simp only [validEvents, hread, List.nil_append]
      | event event =>
          rw [hread, List.length_cons] at hshort
          have hnext : (batch ++ [(file, event)]).length +
              (readyEvents python unicode files).length < maxEventsPerRequest := by
            rw [List.length_append, List.length_singleton]
            omega
          have hroom : (batch ++ [(file, event)]).length ≠ maxEventsPerRequest := by omega
          obtain ⟨hevents, hraised, hrest, hvalid⟩ := ih hnext
          simp only [if_neg hroom]
          refine ⟨?_, hraised, hrest, ?_⟩
          · rw [hevents, List.map_append, List.append_assoc]
            rfl
          · rw [hvalid]
            rfl

/-- What a full batch has, and what it leaves. -/
theorem nextBatchFrom_full {batch : List (File × JsonValue)} {files : List File}
    (hroom : batch.length < maxEventsPerRequest)
    (hfull : maxEventsPerRequest ≤ batch.length + (readyEvents python unicode files).length) :
    let scan := nextBatchFrom python unicode batch files
    let room := maxEventsPerRequest - batch.length
    scan.events = batch.map Prod.snd ++ (readyEvents python unicode files).take room ∧
      scan.raised = false ∧
      readyEvents python unicode scan.rest = (readyEvents python unicode files).drop room ∧
      validEvents python unicode files =
        (readyEvents python unicode files).take room ++ validEvents python unicode scan.rest ∧
      raisesSome python unicode scan.rest = raisesSome python unicode files ∧
      scan.rest.length < files.length := by
  induction files generalizing batch with
  | nil =>
      rw [readyEvents, List.length_nil] at hfull
      omega
  | cons file files ih =>
      rw [nextBatchFrom, readyEvents, raisesSome, validEvents]
      rw [readyEvents] at hfull
      cases hread : readEvent python unicode file with
      | rejected =>
          rw [hread] at hfull
          obtain ⟨hevents, hraised, hready, hvalid, hraises, hlength⟩ := ih hroom hfull
          exact ⟨hevents, hraised, hready, hvalid, hraises, hlength.trans (Nat.lt_succ_self _)⟩
      | raises =>
          rw [hread, List.length_nil] at hfull
          omega
      | event event =>
          rw [hread, List.length_cons] at hfull
          have hlength : (batch ++ [(file, event)]).length = batch.length + 1 := by
            rw [List.length_append, List.length_singleton]
          by_cases hlast : (batch ++ [(file, event)]).length = maxEventsPerRequest
          · have hone : maxEventsPerRequest - batch.length = 1 := by omega
            simp only [if_pos hlast, hone]
            refine ⟨?_, trivial, rfl, rfl, trivial, Nat.lt_succ_self _⟩
            rw [Scan.events, List.map_append]
            rfl
          · have hsucc : maxEventsPerRequest - batch.length =
                maxEventsPerRequest - (batch ++ [(file, event)]).length + 1 := by omega
            obtain ⟨hevents, hraised, hready, hvalid, hraises, hrest⟩ :=
              @ih (batch ++ [(file, event)]) (by omega) (by omega)
            simp only [if_neg hlast, hsucc]
            refine ⟨?_, hraised, hready, ?_, hraises, hrest.trans (Nat.lt_succ_self _)⟩
            · rw [hevents, List.map_append, List.append_assoc]
              rfl
            · rw [hvalid]
              rfl

/-- A batch has the events of its files. -/
theorem read_of_mem_nextBatchFrom {batch : List (File × JsonValue)} {files : List File}
    (hbatch : ∀ entry ∈ batch, readEvent python unicode entry.1 = .event entry.2) :
    ∀ entry ∈ (nextBatchFrom python unicode batch files).batch,
      readEvent python unicode entry.1 = .event entry.2 := by
  induction files generalizing batch with
  | nil => exact hbatch
  | cons file files ih =>
      rw [nextBatchFrom]
      cases hread : readEvent python unicode file with
      | rejected => exact ih hbatch
      | raises => exact hbatch
      | event event =>
          have hmore : ∀ entry ∈ batch ++ [(file, event)],
              readEvent python unicode entry.1 = .event entry.2 :=
            List.forall_mem_append.mpr ⟨hbatch, List.forall_mem_singleton.mpr hread⟩
          dsimp only
          split_ifs
          · exact hmore
          · exact ih hmore

theorem validEvents_files {batch : List (File × JsonValue)} (files : List File)
    (hbatch : ∀ entry ∈ batch, readEvent python unicode entry.1 = .event entry.2) :
    validEvents python unicode (batch.map Prod.fst ++ files) =
      batch.map Prod.snd ++ validEvents python unicode files := by
  induction batch with
  | nil => rfl
  | cons entry batch ih =>
      obtain ⟨hentry, hbatch⟩ := List.forall_mem_cons.mp hbatch
      rw [List.map_cons, List.cons_append, validEvents, hentry, ih hbatch]
      rfl

/-- What a batch leaves while it is not stored still has its events. -/
theorem validEvents_outbox (outbox : List File) :
    validEvents python unicode (nextBatch python unicode outbox).outbox =
      (nextBatch python unicode outbox).events ++
        validEvents python unicode (nextBatch python unicode outbox).rest :=
  validEvents_files _ (read_of_mem_nextBatchFrom fun _ hmem => by cases hmem)

theorem nextBatch_short {outbox : List File}
    (hshort : (readyEvents python unicode outbox).length < maxEventsPerRequest) :
    let scan := nextBatch python unicode outbox
    scan.events = readyEvents python unicode outbox ∧
      scan.raised = raisesSome python unicode outbox ∧
      (scan.raised = false → scan.rest = []) ∧
      validEvents python unicode outbox =
        readyEvents python unicode outbox ++ validEvents python unicode scan.rest := by
  apply nextBatchFrom_short
  rw [List.length_nil, Nat.zero_add]
  exact hshort

theorem nextBatch_full {outbox : List File}
    (hfull : maxEventsPerRequest ≤ (readyEvents python unicode outbox).length) :
    let scan := nextBatch python unicode outbox
    scan.events = (readyEvents python unicode outbox).take maxEventsPerRequest ∧
      scan.raised = false ∧
      readyEvents python unicode scan.rest =
        (readyEvents python unicode outbox).drop maxEventsPerRequest ∧
      validEvents python unicode outbox =
        (readyEvents python unicode outbox).take maxEventsPerRequest ++
          validEvents python unicode scan.rest ∧
      raisesSome python unicode scan.rest = raisesSome python unicode outbox ∧
      scan.rest.length < outbox.length := by
  apply nextBatchFrom_full
  · decide
  · rw [List.length_nil, Nat.zero_add]
    exact hfull

/-- All events are ready where no file makes the check raise. -/
theorem validEvents_of_not_raisesSome {files : List File}
    (hraises : raisesSome python unicode files = false) :
    validEvents python unicode files = readyEvents python unicode files := by
  induction files with
  | nil => rfl
  | cons file files ih =>
      rw [raisesSome] at hraises
      rw [validEvents, readyEvents]
      cases hread : readEvent python unicode file with
      | rejected =>
          rw [hread] at hraises
          exact ih hraises
      | raises =>
          rw [hread] at hraises
          cases hraises
      | event event =>
          rw [hread] at hraises
          exact congrArg (event :: ·) (ih hraises)

theorem length_readyEvents_le (files : List File) :
    (readyEvents python unicode files).length ≤ (validEvents python unicode files).length := by
  induction files with
  | nil => exact le_rfl
  | cons file files ih =>
      rw [readyEvents, validEvents]
      cases readEvent python unicode file with
      | rejected => exact ih
      | raises => exact Nat.zero_le _
      | event event => exact Nat.succ_le_succ ih

end Batches

/-! ### A delivery -/

section Run

variable (python : PythonJson) (unicode : UnicodeData)

/-- How many events a delivery stores: where a file makes the check raise, those of the batches that
are full before it. -/
def storedCount (outbox : List File) : ℕ :=
  let ready := (readyEvents python unicode outbox).length
  if raisesSome python unicode outbox then ready - ready % maxEventsPerRequest else ready

variable {python unicode} {datetime : CodePoints → Bool}

theorem deliver_nil {fuel : ℕ} (hfuel : 0 < fuel) (stored : List JsonValue) :
    deliver python unicode datetime fuel stored [] =
      { ending := .done, outbox := [], stored } := by
  cases fuel with
  | zero => cases hfuel
  | succ fuel => rfl

theorem storedCount_full {outbox rest : List File}
    (hfull : maxEventsPerRequest ≤ (readyEvents python unicode outbox).length)
    (hready : readyEvents python unicode rest =
      (readyEvents python unicode outbox).drop maxEventsPerRequest)
    (hraises : raisesSome python unicode rest = raisesSome python unicode outbox) :
    storedCount python unicode outbox = maxEventsPerRequest + storedCount python unicode rest := by
  have hmod := Nat.mod_le
    ((readyEvents python unicode outbox).length - maxEventsPerRequest) maxEventsPerRequest
  rw [storedCount, storedCount, hready, hraises, List.length_drop, Nat.mod_eq_sub_mod hfull]
  split_ifs <;> omega

/-- What a delivery stores while the API accepts every batch. -/
theorem deliver_stored {outbox : List File} {fuel : ℕ} (hfuel : outbox.length < fuel)
    (stored : List JsonValue)
    (hsend : ∀ events ≠ [], events.length ≤ maxEventsPerRequest →
      (∀ event ∈ events, event ∈ validEvents python unicode outbox) →
      sendEvents python datetime events = some true) :
    let final := deliver python unicode datetime fuel stored outbox
    let sent := (readyEvents python unicode outbox).take (storedCount python unicode outbox)
    final.stored = stored ++ sent ∧
      validEvents python unicode outbox = sent ++ validEvents python unicode final.outbox := by
  induction fuel generalizing stored outbox with
  | zero => cases hfuel
  | succ fuel ih =>
      have hvalid := @validEvents_outbox python unicode outbox
      rw [deliver]
      rcases Nat.lt_or_ge (readyEvents python unicode outbox).length maxEventsPerRequest with
        hshort | hfull
      · obtain ⟨hevents, hraised, hrest, hsplit⟩ := nextBatch_short hshort
        rw [hevents, ← hsplit] at hvalid
        rw [storedCount]
        cases hraises : raisesSome python unicode outbox with
        | true =>
            rw [hraises] at hraised
            simp only [hraised, if_true, Nat.mod_eq_of_lt hshort, Nat.sub_self, List.take_zero,
              List.append_nil, List.nil_append]
            exact ⟨trivial, hvalid.symm⟩
        | false =>
            rw [hraises] at hraised
            have hempty := hrest hraised
            rw [hempty, validEvents, List.append_nil] at hsplit
            simp only [hraised, Bool.false_eq_true, if_false, List.take_length, hevents, hempty]
            cases hready : readyEvents python unicode outbox with
            | nil =>
                simp only [List.isEmpty_nil, if_true, List.append_nil, List.nil_append]
                exact ⟨trivial, hvalid.symm⟩
            | cons event events =>
                rw [hready] at hsplit hshort
                have haccepted : sendEvents python datetime (event :: events) = some true := by
                  apply hsend _ (List.cons_ne_nil _ _) hshort.le
                  rw [hsplit]
                  exact fun _ hmem => hmem
                have hpos : 0 < fuel := by
                  apply lt_of_lt_of_le _ (Nat.lt_succ_iff.mp hfuel)
                  apply List.length_pos_iff.mpr
                  rintro rfl
                  cases hready
                simp only [List.isEmpty_cons, Bool.false_eq_true, if_false, haccepted, hsplit,
                  deliver_nil hpos]
                exact ⟨trivial, (List.append_nil _).symm⟩
      · obtain ⟨hevents, hraised, hready, hsplit, hraises, hlength⟩ := nextBatch_full hfull
        have hsent : (nextBatch python unicode outbox).events.isEmpty = false := by
          rw [hevents, List.isEmpty_eq_false_iff, ← List.length_pos_iff, List.length_take]
          exact lt_min (by decide) (lt_of_lt_of_le (by decide) hfull)
        have haccepted : sendEvents python datetime (nextBatch python unicode outbox).events =
            some true := by
          apply hsend
          · exact List.isEmpty_eq_false_iff.mp hsent
          · rw [hevents]
            exact List.length_take_le _ _
          · intro event hmem
            rw [hsplit, ← hevents]
            exact List.mem_append_left _ hmem
        have hrest : ∀ events ≠ [], events.length ≤ maxEventsPerRequest →
            (∀ event ∈ events,
              event ∈ validEvents python unicode (nextBatch python unicode outbox).rest) →
            sendEvents python datetime events = some true := by
          intro events hne hle hmem
          apply hsend events hne hle
          intro event hevent
          rw [hsplit]
          exact List.mem_append_right _ (hmem event hevent)
        have hfewer : (nextBatch python unicode outbox).rest.length < fuel := by omega
        obtain ⟨hstored, hleft⟩ :=
          ih hfewer (stored ++ (nextBatch python unicode outbox).events) hrest
        simp only [hraised, hsent, Bool.false_eq_true, if_false, haccepted]
        rw [storedCount_full hfull hready hraises, List.take_add, ← hready]
        constructor
        · rw [hstored, hevents, List.append_assoc]
        · rw [List.append_assoc, ← hleft]
          exact hsplit

/-- A delivery stores every valid event just where none is left behind a file that makes the check
raise, nor in a batch that such a file keeps from being full. -/
theorem stored_iff {outbox : List File}
    (hsend : ∀ events ≠ [], events.length ≤ maxEventsPerRequest →
      (∀ event ∈ events, event ∈ validEvents python unicode outbox) →
      sendEvents python datetime events = some true) :
    let final := deliverPendingEvents python unicode datetime outbox
    (final.stored = validEvents python unicode outbox ∧
        validEvents python unicode final.outbox = []) ↔
      (raisesSome python unicode outbox = true →
        maxEventsPerRequest ∣ (readyEvents python unicode outbox).length ∧
          validEvents python unicode outbox = readyEvents python unicode outbox) := by
  obtain ⟨hstored, hleft⟩ := deliver_stored (Nat.lt_succ_self outbox.length) [] hsend
  rw [List.nil_append] at hstored
  change (deliverPendingEvents python unicode datetime outbox).stored = _ at hstored
  change _ = _ ++ validEvents python unicode
    (deliverPendingEvents python unicode datetime outbox).outbox at hleft
  constructor
  · intro ⟨_, hgone⟩ hraises
    rw [hgone, List.append_nil] at hleft
    have hlength := congrArg List.length hleft
    have hle := @length_readyEvents_le python unicode outbox
    rw [hlength, List.length_take] at hle
    have hcount : (readyEvents python unicode outbox).length ≤ storedCount python unicode outbox :=
      (le_min_iff.mp hle).1
    refine ⟨?_, hleft.trans (List.take_of_length_le hcount)⟩
    rw [storedCount, if_pos hraises] at hcount
    apply Nat.dvd_of_mod_eq_zero
    have hmod := Nat.mod_le (readyEvents python unicode outbox).length maxEventsPerRequest
    omega
  · intro hunstuck
    have hall : validEvents python unicode outbox = readyEvents python unicode outbox := by
      cases hraises : raisesSome python unicode outbox with
      | true => exact (hunstuck hraises).2
      | false => exact validEvents_of_not_raisesSome hraises
    have hcount : storedCount python unicode outbox =
        (readyEvents python unicode outbox).length := by
      rw [storedCount]
      cases hraises : raisesSome python unicode outbox with
      | true =>
          rw [if_pos rfl, Nat.mod_eq_zero_of_dvd (hunstuck hraises).1, Nat.sub_zero]
      | false => rfl
    rw [hcount, List.take_length, ← hall] at hstored hleft
    refine ⟨hstored, ?_⟩
    exact List.self_eq_append_right.mp hleft

end Run

/-! ### The size of a body -/

/-- A text of ASCII of at most so many characters. -/
structure Compact (most : ℕ) (text : CodePoints) : Prop where
  length_le : text.length ≤ most
  ascii : ∀ char ∈ text, isAscii char = true

namespace Compact

variable {most other : ℕ} {text more : CodePoints}

theorem append (htext : Compact most text) (hmore : Compact other more) :
    Compact (most + other) (text ++ more) where
  length_le := by
    rw [List.length_append]
    exact Nat.add_le_add htext.length_le hmore.length_le
  ascii := List.forall_mem_append.mpr ⟨htext.ascii, hmore.ascii⟩

theorem mono (htext : Compact most text) (hle : most ≤ other) : Compact other text where
  length_le := htext.length_le.trans hle
  ascii := htext.ascii

theorem singleton {char : Char} (hascii : isAscii (ofChar char) = true) :
    Compact 1 [ofChar char] where
  length_le := le_rfl
  ascii := List.forall_mem_singleton.mpr hascii

theorem of_all (hall : (decide (text.length ≤ most) && text.all isAscii) = true) :
    Compact most text := by
  rw [Bool.and_eq_true, decide_eq_true_eq, List.all_eq_true] at hall
  exact ⟨hall.1, hall.2⟩

theorem intercalate {texts : List CodePoints}
    (hascii : ∀ text ∈ texts, ∀ char ∈ text, isAscii char = true) :
    Compact (texts.map fun text => text.length + 1).sum ([ofChar ','].intercalate texts) := by
  induction texts with
  | nil => exact ⟨le_rfl, fun _ hmem => by cases hmem⟩
  | cons text texts ih =>
      obtain ⟨htext, htexts⟩ := List.forall_mem_cons.mp hascii
      have hhead : Compact text.length text := ⟨le_rfl, htext⟩
      rw [List.map_cons, List.sum_cons]
      by_cases hnil : texts = []
      · rw [hnil, List.intercalate_singleton]
        exact hhead.mono (by omega)
      · rw [List.intercalate_cons_of_ne_nil hnil]
        exact (hhead.append (singleton (by decide))).append (ih htexts)

end Compact

/-- Printable ASCII that JSON has as it is. -/
def isUnescaped (char : CodePoint) : Bool :=
  0x20 ≤ char.val && char.val < 0x80 && char.val ≠ 0x22 && char.val ≠ 0x5c

theorem escape_of_isUnescaped {char : CodePoint} (hchar : isUnescaped char = true) :
    JsonValue.escape char = [char] := by
  simp only [isUnescaped, Bool.and_eq_true, decide_eq_true_eq] at hchar
  have hquotation : char ≠ JsonValue.quotationMark := by
    rintro rfl
    exact hchar.1.2 rfl
  have hbackslash : char ≠ JsonValue.backslash := by
    rintro rfl
    exact hchar.2 rfl
  rw [JsonValue.escape, if_neg hquotation, if_neg hbackslash, if_neg (by omega), if_neg (by omega),
    if_neg (by omega), if_neg (by omega), if_neg (by omega), if_neg (by omega)]

theorem compact_dumpString {text : CodePoints} {most : ℕ} (hlength : text.length ≤ most)
    (hunescaped : ∀ char ∈ text, isUnescaped char = true) :
    Compact (most + 2) (JsonValue.dumpString text) := by
  have hescape : text.flatMap JsonValue.escape = text := by
    calc
      text.flatMap JsonValue.escape = text.flatMap fun char => [char] := by
        apply List.flatMap_congr
        intro char hmem
        exact escape_of_isUnescaped (hunescaped char hmem)
      _ = text := List.flatMap_singleton' text
  have htext : Compact most text := by
    refine ⟨hlength, fun char hmem => ?_⟩
    have hchar := hunescaped char hmem
    simp only [isUnescaped, Bool.and_eq_true, decide_eq_true_eq] at hchar
    exact decide_eq_true hchar.1.1.2
  have hmark : Compact 1 [JsonValue.quotationMark] := Compact.singleton (by decide)
  rw [JsonValue.dumpString, hescape]
  exact ((hmark.append htext).append hmark).mono (by omega)

theorem compact_of_accepts {pattern : Pattern CodePoint} {text : CodePoints} {most : ℕ}
    (hmost : pattern.longest = some most) (hwithin : pattern.Within isUnescaped)
    (haccepts : pattern.accepts text = true) : Compact (most + 2) (JsonValue.dumpString text) :=
  compact_dumpString (Pattern.length_le_of_mem hmost ((Pattern.accepts_iff _ _).mp haccepts))
    (Pattern.forall_of_accepts hwithin haccepts)

theorem literal_within {expected : Char} (hexpected : isUnescaped (ofChar expected) = true) :
    (literal expected).Within isUnescaped := by
  intro char his
  have hvalue : char = ofChar expected := by
    apply Fin.ext
    rw [of_decide_eq_true his]
    exact (Nat.mod_eq_of_lt (toNat_lt expected)).symm
  rw [hvalue]
  exact hexpected

theorem digit_within : (Pattern.one asciiDigit).Within isUnescaped := by
  intro char hdigit
  simp only [asciiDigit, Bool.and_eq_true, decide_eq_true_eq] at hdigit
  simp only [isUnescaped, Bool.and_eq_true, decide_eq_true_eq]
  omega

theorem uuidV4_within : uuidV4.Within isUnescaped := by
  have hdash : (literal '-').Within isUnescaped := literal_within (by decide)
  have hhex : (Pattern.one isHex).Within isUnescaped := by
    intro char hchar
    have hrange : '0'.toNat = 48 ∧ '9'.toNat = 57 ∧ 'a'.toNat = 97 ∧ 'f'.toNat = 102 := by decide
    simp only [isHex, range, Bool.or_eq_true, Bool.and_eq_true, decide_eq_true_eq] at hchar
    simp only [isUnescaped, Bool.and_eq_true, decide_eq_true_eq]
    omega
  refine (hhex.times 8).cons <| hdash.cons <| (hhex.times 4).cons <| hdash.cons <|
    (literal_within (by decide)).cons <| (hhex.times 3).cons <| hdash.cons <|
    Pattern.Within.cons ?_ <| (hhex.times 3).cons <| hdash.cons <| (hhex.times 12).cons
    Pattern.within_nil
  intro char hchar
  have hvariant : '8'.toNat = 56 ∧ '9'.toNat = 57 ∧ 'a'.toNat = 97 ∧ 'b'.toNat = 98 := by decide
  simp only [is, Bool.or_eq_true, decide_eq_true_eq] at hchar
  simp only [isUnescaped, Bool.and_eq_true, decide_eq_true_eq]
  omega

theorem utcTimestamp_within : (utcTimestamp asciiDigit).Within isUnescaped := by
  have hdash : (literal '-').Within isUnescaped := literal_within (by decide)
  have hcolon : (literal ':').Within isUnescaped := literal_within (by decide)
  have hpair := digit_within.times 2
  refine (digit_within.times 4).cons <| hdash.cons <| hpair.cons <| hdash.cons <| hpair.cons <|
    (literal_within (by decide)).cons <| hpair.cons <| hcolon.cons <| hpair.cons <|
    hcolon.cons <| hpair.cons <| Pattern.Within.cons ?_ <|
    (literal_within (by decide)).cons Pattern.within_nil
  exact Pattern.Within.optional ⟨literal_within (by decide), digit_within.upTo 8⟩

theorem semverLike_within : (semverLike asciiDigit).Within isUnescaped := by
  have hdigits := digit_within.many1
  have hdot : (literal '.').Within isUnescaped := literal_within (by decide)
  refine hdigits.cons <| hdot.cons <| hdigits.cons <| hdot.cons <| hdigits.cons <|
    Pattern.Within.cons ?_ <| Pattern.Within.cons ?_ Pattern.within_nil
  · exact ((literal_within (by decide)).cons <| (literal_within (by decide)).cons <|
      hdigits.cons Pattern.within_nil).optional
  · have htail : '0'.toNat = 48 ∧ '9'.toNat = 57 ∧ 'A'.toNat = 65 ∧ 'Z'.toNat = 90 ∧
        'a'.toNat = 97 ∧ 'z'.toNat = 122 ∧ '.'.toNat = 46 ∧ '+'.toNat = 43 ∧ '-'.toNat = 45 := by
      decide
    refine Pattern.Within.optional ⟨?_, Pattern.Within.many1 ?_⟩
    · intro char hchar
      simp only [is, Bool.or_eq_true, decide_eq_true_eq] at hchar
      simp only [isUnescaped, Bool.and_eq_true, decide_eq_true_eq]
      omega
    · intro char hchar
      simp only [is, range, Bool.or_eq_true, Bool.and_eq_true, decide_eq_true_eq] at hchar
      simp only [isUnescaped, Bool.and_eq_true, decide_eq_true_eq]
      omega

theorem compact_command {command : CodePoints} (hcommand : command ∈ reportedCommands) :
    Compact 10 (JsonValue.dumpString command) := by
  have hcommands : (reportedCommands.all fun command =>
      decide (command.length ≤ 8) && command.all isUnescaped) = true := rfl
  have hreported := List.all_eq_true.mp hcommands command hcommand
  rw [Bool.and_eq_true, decide_eq_true_eq, List.all_eq_true] at hreported
  exact compact_dumpString hreported.1 hreported.2

theorem get_of_mem {items : List (CodePoints × JsonValue)} {key : CodePoints} {value : JsonValue}
    (hdistinct : (items.map Prod.fst).Nodup) (hmem : (key, value) ∈ items) :
    JsonValue.get items key = some value := by
  have hsome : (items.reverse.find? fun entry => entry.1 = key).isSome = true := by
    rw [List.find?_isSome]
    exact ⟨(key, value), List.mem_reverse.mpr hmem, decide_eq_true rfl⟩
  obtain ⟨entry, hentry⟩ := Option.isSome_iff_exists.mp hsome
  have hkey : entry.1 = key := of_decide_eq_true (List.find?_some hentry :)
  have hentryMem := List.mem_reverse.mp (List.mem_of_find?_eq_some hentry)
  have heq := List.inj_on_of_nodup_map hdistinct hentryMem hmem hkey
  rw [JsonValue.get, hentry, heq, Option.map_some]

section Bodies

variable {python : PythonJson} {items : List (CodePoints × JsonValue)}

/-- An entry of the event, by its key. -/
def entryText (python : PythonJson) (items : List (CodePoints × JsonValue)) (key : CodePoints) :
    CodePoints :=
  JsonValue.dumpEntry key
    (JsonValue.dumps python.floatText ((JsonValue.get items key).getD .null))

theorem perm_eventKeys (hdistinct : (items.map Prod.fst).Nodup)
    (hkeys : hasEventKeys items = true) : (items.map Prod.fst).Perm eventKeys := by
  rw [hasEventKeys, Bool.and_eq_true, List.all_eq_true, List.all_eq_true] at hkeys
  have hnodup : eventKeys.Nodup := by
    simp [eventKeys, ofString_inj]
  apply (List.perm_ext_iff_of_nodup hdistinct hnodup).mpr
  intro key
  constructor
  · intro hmem
    exact of_decide_eq_true (hkeys.1 key hmem)
  · intro hmem
    exact of_decide_eq_true (hkeys.2 key hmem)

theorem dumpsEntries_perm (hdistinct : (items.map Prod.fst).Nodup)
    (hkeys : hasEventKeys items = true) :
    (JsonValue.dumpsEntries python.floatText items).Perm
      (eventKeys.map (entryText python items)) := by
  have hentries : JsonValue.dumpsEntries python.floatText items =
      (items.map Prod.fst).map (entryText python items) := by
    rw [JsonValue.dumpsEntries_eq, List.map_map]
    apply List.map_congr_left
    intro entry hmem
    rw [Function.comp_apply, entryText, get_of_mem hdistinct hmem, Option.getD_some]
  rw [hentries]
  exact (perm_eventKeys hdistinct hkeys).map _

theorem compact_entry {key : String} {most value : ℕ}
    (hkey : Compact most (JsonValue.dumpString (ofString key)))
    (hvalue : Compact value (JsonValue.dumps python.floatText (field items key))) :
    Compact (most + 1 + value) (entryText python items (ofString key)) :=
  (hkey.append (Compact.singleton (by decide))).append hvalue

/-- An object whose entries are short is short. -/
theorem compact_dumpObject {texts : List CodePoints} {most : ℕ}
    (hascii : ∀ text ∈ texts, ∀ char ∈ text, isAscii char = true)
    (hsum : (texts.map fun text => text.length + 1).sum ≤ most) :
    Compact (most + 2) (JsonValue.dumpObject texts) := by
  have hopen : Compact 1 (ofString "\x7b") := Compact.singleton (by decide)
  have hclose : Compact 1 (ofString "\x7d") := Compact.singleton (by decide)
  exact ((hopen.append (Compact.intercalate hascii)).append hclose).mono (by omega)

theorem compact_dumpArray {texts : List CodePoints} {most : ℕ}
    (hascii : ∀ text ∈ texts, ∀ char ∈ text, isAscii char = true)
    (hsum : (texts.map fun text => text.length + 1).sum ≤ most) :
    Compact (most + 2) (JsonValue.dumpArray texts) := by
  have hopen : Compact 1 [ofChar '['] := Compact.singleton (by decide)
  have hclose : Compact 1 [ofChar ']'] := Compact.singleton (by decide)
  exact ((hopen.append (Compact.intercalate hascii)).append hclose).mono (by omega)

theorem compact_bool {value : JsonValue} (hbool : isBool value = true) :
    Compact 5 (JsonValue.dumps python.floatText value) := by
  have htrue : Compact 5 (ofString "true") := (Compact.of_all rfl)
  have hfalse : Compact 5 (ofString "false") := (Compact.of_all rfl)
  cases value with
  | bool value =>
      cases value with
      | true => exact htrue
      | false => exact hfalse
  | _ => cases hbool

/-- An event that is valid and plain is written in a bounded number of characters. -/
theorem compact_event {unicode : UnicodeData} (hdistinct : (items.map Prod.fst).Nodup)
    (hvalid : isValidEvent unicode (.dict items) = some true)
    (hplain : isPlainEvent (.dict items) = true) :
    Compact 276 (JsonValue.dumps python.floatText (.dict items)) := by
  obtain ⟨_, eventId, installationId, occurredAt, cliVersion, heq, hkeys, heventId, hevent,
    hinstallationId, hinstallation, hcommand, hsucceeded, hoccurredAt, htime, hcliVersion,
    hversion⟩ := valid_event hvalid
  cases heq
  obtain ⟨command, hcommandText, hreported⟩ := exists_str_of_strAnd hcommand
  rw [isPlainEvent, hoccurredAt, hcliVersion, strAnd, strAnd, Bool.and_eq_true, decide_eq_true_eq,
    decide_eq_true_eq] at hplain
  have hfirst : Compact 49 (entryText python items (ofString "event_id")) := by
    apply @compact_entry python items "event_id" 10 38 (Compact.of_all rfl)
    rw [heventId]
    exact compact_of_accepts rfl uuidV4_within (uuid_taken hevent)
  have hsecond : Compact 56 (entryText python items (ofString "installation_id")) := by
    apply @compact_entry python items "installation_id" 17 38 (Compact.of_all rfl)
    rw [hinstallationId]
    exact compact_of_accepts rfl uuidV4_within (uuid_taken hinstallation)
  have hthird : Compact 20 (entryText python items (ofString "command")) := by
    apply @compact_entry python items "command" 9 10 (Compact.of_all rfl)
    rw [hcommandText]
    exact compact_command (of_decide_eq_true hreported)
  have hfourth : Compact 17 (entryText python items (ofString "succeeded")) := by
    apply @compact_entry python items "succeeded" 11 5 (Compact.of_all rfl)
    exact compact_bool hsucceeded
  have hfifth : Compact 46 (entryText python items (ofString "occurred_at")) := by
    apply @compact_entry python items "occurred_at" 13 32 (Compact.of_all rfl)
    rw [hoccurredAt]
    rw [isUtcTimestamp, Bool.and_eq_true] at htime
    exact compact_of_accepts rfl utcTimestamp_within
      (accepts_of_plain (restrict_utcTimestamp unicode) hplain.1 htime.1)
  have hsixth : Compact 80 (entryText python items (ofString "cli_version")) := by
    apply @compact_entry python items "cli_version" 13 66 (Compact.of_all rfl)
    rw [hcliVersion]
    rw [isReportableVersion, Bool.and_eq_true, decide_eq_true_eq] at hversion
    exact compact_dumpString hversion.1 (Pattern.forall_of_accepts semverLike_within
      (accepts_of_plain (restrict_semverLike unicode) hplain.2 hversion.2))
  have hperm := @dumpsEntries_perm python items hdistinct hkeys
  apply compact_dumpObject
  · intro text hmem
    have hentries : ∀ text ∈ eventKeys.map (entryText python items),
        ∀ char ∈ text, isAscii char = true := by
      simp only [eventKeys, List.map_cons, List.map_nil, List.forall_mem_cons]
      exact ⟨hfirst.ascii, hsecond.ascii, hthird.ascii, hfourth.ascii, hfifth.ascii,
        hsixth.ascii, fun _ hmem => by cases hmem⟩
    exact hentries text (hperm.mem_iff.mp hmem)
  · rw [(hperm.map _).sum_eq]
    simp only [eventKeys, List.map_cons, List.map_nil, List.sum_cons, List.sum_nil]
    have hlengths := And.intro hfirst.length_le (And.intro hsecond.length_le
      (And.intro hthird.length_le (And.intro hfourth.length_le
        (And.intro hfifth.length_le hsixth.length_le))))
    omega

end Bodies

/-! ### Bodies the API takes -/

section Sending

variable {python : PythonJson} {unicode : UnicodeData} {datetime : CodePoints → Bool}

theorem sum_le_of_forall_le {texts : List CodePoints} {most : ℕ}
    (htexts : ∀ text ∈ texts, text.length ≤ most) :
    (texts.map fun text => text.length + 1).sum ≤ texts.length * (most + 1) := by
  calc
    (texts.map fun text => text.length + 1).sum ≤
        (texts.map fun text => text.length + 1).length • (most + 1) := by
      apply List.sum_le_card_nsmul
      intro size hmem
      obtain ⟨text, htext, rfl⟩ := List.mem_map.mp hmem
      exact Nat.succ_le_succ (htexts text htext)
    _ = texts.length * (most + 1) := by rw [List.length_map, smul_eq_mul]

/-- The body of a batch of events that are short stays under the limit. -/
theorem compact_sendBody {events : List JsonValue} (hle : events.length ≤ maxEventsPerRequest)
    (hevents : ∀ event ∈ events, Compact 276 (JsonValue.dumps python.floatText event)) :
    Compact maxRequestBodyBytes (sendBody python events) := by
  have htexts : ∀ text ∈ JsonValue.dumpsItems python.floatText events, Compact 276 text := by
    intro text hmem
    rw [JsonValue.dumpsItems_eq] at hmem
    obtain ⟨event, hevent, rfl⟩ := List.mem_map.mp hmem
    exact hevents event hevent
  have hcount : (JsonValue.dumpsItems python.floatText events).length = events.length := by
    rw [JsonValue.dumpsItems_eq, List.length_map]
  have harray : Compact 6927
      (JsonValue.dumpArray (JsonValue.dumpsItems python.floatText events)) := by
    apply compact_dumpArray
    · intro text hmem
      exact (htexts text hmem).ascii
    · apply (sum_le_of_forall_le fun text hmem => (htexts text hmem).length_le).trans
      rw [hcount]
      rw [maxEventsPerRequest] at hle
      omega
  have hkey : Compact 8 (JsonValue.dumpString (ofString "events")) := Compact.of_all rfl
  have hentry : Compact 6936 (JsonValue.dumpEntry (ofString "events")
      (JsonValue.dumpArray (JsonValue.dumpsItems python.floatText events))) :=
    ((hkey.append (Compact.singleton (by decide))).append harray).mono (by omega)
  have hbody : Compact 6939 (sendBody python events) := by
    apply compact_dumpObject
    · exact List.forall_mem_singleton.mpr hentry.ascii
    · exact Nat.succ_le_succ hentry.length_le
  exact hbody.mono (by decide)

theorem readEvent_eq_event {file : File} {event : JsonValue}
    (hread : readEvent python unicode file = .event event) :
    (∃ raw, python.loads raw = .value event) ∧ isValidEvent unicode event = some true := by
  rw [readEvent] at hread
  split at hread
  · cases hread
  · dsimp only at hread
    split at hread
    · cases hread
    · cases hread
    · rename_i hloads
      split_ifs at hread
      split at hread
      · cases hread
      · rename_i hvalid
        cases hread
        exact ⟨⟨_, hloads⟩, hvalid⟩
      · cases hread

theorem exists_read_of_mem {outbox : List File} {event : JsonValue}
    (hmem : event ∈ validEvents python unicode outbox) :
    ∃ file ∈ outbox, readEvent python unicode file = .event event := by
  induction outbox with
  | nil => cases hmem
  | cons file files ih =>
      rw [validEvents] at hmem
      have hrest : event ∈ validEvents python unicode files →
          ∃ other ∈ file :: files, readEvent python unicode other = .event event := by
        intro hmem
        obtain ⟨other, hother, hread⟩ := ih hmem
        exact ⟨other, List.mem_cons_of_mem _ hother, hread⟩
      cases hread : readEvent python unicode file with
      | rejected =>
          rw [hread] at hmem
          exact hrest hmem
      | raises =>
          rw [hread] at hmem
          exact hrest hmem
      | event first =>
          rw [hread] at hmem
          rcases List.mem_cons.mp hmem with rfl | hmem
          · exact ⟨file, List.mem_cons_self, hread⟩
          · exact hrest hmem

theorem taken_of_plain (hzod : ZodDatetime datetime) {outbox : List File} {event : JsonValue}
    (hmem : event ∈ validEvents python unicode outbox) (hplain : isPlainEvent event = true) :
    Compact 276 (JsonValue.dumps python.floatText event) ∧
      usageEventSchema datetime event = true := by
  obtain ⟨file, _, hread⟩ := exists_read_of_mem hmem
  obtain ⟨⟨raw, hloads⟩, hvalid⟩ := readEvent_eq_event hread
  refine ⟨?_, (event_taken_iff hzod hvalid).mpr hplain⟩
  obtain ⟨items, _, _, _, _, rfl, _⟩ := valid_event hvalid
  exact compact_event (python.distinct raw items hloads) hvalid hplain

theorem usageEventBatchSchema_of_forall {events : List JsonValue} (hne : events ≠ [])
    (hle : events.length ≤ maxEventsPerRequest)
    (hevents : ∀ event ∈ events, usageEventSchema datetime event = true) :
    usageEventBatchSchema datetime events = true := by
  have hpos : 1 ≤ events.length := List.length_pos_iff.mpr hne
  have hmost : events.length ≤ maxEventsPerBatch := hle
  rw [usageEventBatchSchema, decide_eq_true hpos, List.all_eq_true.mpr hevents,
    decide_eq_true hmost]
  rfl

/-- Plain events of the outbox are stored when they are sent. -/
theorem sendEvents_accepted (hzod : ZodDatetime datetime) {outbox : List File}
    (hplain : ∀ event ∈ validEvents python unicode outbox, isPlainEvent event = true)
    {events : List JsonValue} (hne : events ≠ []) (hle : events.length ≤ maxEventsPerRequest)
    (hmem : ∀ event ∈ events, event ∈ validEvents python unicode outbox) :
    sendEvents python datetime events = some true := by
  have hevents : ∀ event ∈ events, Compact 276 (JsonValue.dumps python.floatText event) ∧
      usageEventSchema datetime event = true := fun event hevent =>
    taken_of_plain hzod (hmem event hevent) (hplain event (hmem event hevent))
  have hbody := compact_sendBody hle fun event hevent => (hevents event hevent).1
  obtain ⟨bytes, hencode, hlength⟩ := encodeUtf8?_of_ascii fun char hchar =>
    of_decide_eq_true (hbody.ascii char hchar)
  have hsize : bytes.length ≤ maxRequestBodyBytes := hlength.trans_le hbody.length_le
  rw [sendEvents, hencode, Option.map_some, decide_eq_true hsize,
    usageEventBatchSchema_of_forall hne hle fun event hevent => (hevents event hevent).2]
  rfl

/-- A batch is full at most, and its events are of the outbox. -/
theorem nextBatch_events (outbox : List File) :
    (nextBatch python unicode outbox).events.length ≤ maxEventsPerRequest ∧
      ∀ event ∈ (nextBatch python unicode outbox).events,
        event ∈ validEvents python unicode outbox := by
  rcases Nat.lt_or_ge (readyEvents python unicode outbox).length maxEventsPerRequest with
    hshort | hfull
  · obtain ⟨hevents, _, _, hsplit⟩ := nextBatch_short hshort
    rw [hsplit, hevents]
    exact ⟨hshort.le, fun event hmem => List.mem_append_left _ hmem⟩
  · obtain ⟨hevents, _, _, hsplit, _⟩ := nextBatch_full hfull
    rw [hsplit, hevents]
    exact ⟨List.length_take_le _ _, fun event hmem => List.mem_append_left _ hmem⟩

end Sending

/-! ### One bad file -/

section Unblocked

variable (python : PythonJson) (unicode : UnicodeData) (datetime : CodePoints → Bool)
  (version : CodePoints) (outbox : List File)

/-- Both sides take the same events, so none is in the way of another. -/
structure Unblocked : Prop where
  events : ∀ event ∈ validEvents python unicode outbox, usageEventSchema datetime event = true
  batch : (nextBatch python unicode outbox).raised = false →
    (nextBatch python unicode outbox).events ≠ [] →
    usageEventBatchSchema datetime (nextBatch python unicode outbox).events = true
  built : ∀ run : Run, run.version = version → run.Reportable unicode →
    isValidEvent unicode run.buildEvent = some true ∧
      usageEventSchema datetime run.buildEvent = true
  delivered :
    let final := deliverPendingEvents python unicode datetime outbox
    final.stored = validEvents python unicode outbox ∧
      validEvents python unicode final.outbox = []

/-- The valid events are plain, and where a file makes the check raise, the batches before it are
full and no event comes after it. -/
structure Deliverable : Prop where
  plain : ∀ event ∈ validEvents python unicode outbox, isPlainEvent event = true
  unstuck : raisesSome python unicode outbox = true →
    maxEventsPerRequest ∣ (readyEvents python unicode outbox).length ∧
      validEvents python unicode outbox = readyEvents python unicode outbox
  version : isReportableVersion unicode version = true → Plain version

variable {python unicode datetime version outbox}

/-- A run whose version is reportable. -/
def sampleRun (version : CodePoints) : Run where
  command := ofString "deploy"
  succeeded := true
  installationId := uuidText (4 * 16 ^ 19 + 8 * 16 ^ 15)
  occurredAt :=
    { fields := { year := 2026, month := 10, day := 8, hour := 9, minute := 30, second := 0 }
      microsecond := 0
      valid := by decide
      year_pos := by decide
      year_le := by decide
      microsecond_lt := by decide }
  uuid := 4 * 16 ^ 19 + 8 * 16 ^ 15
  version := version

theorem sampleRun_reportable (hversion : isReportableVersion unicode version = true) :
    (sampleRun version).Reportable unicode where
  command := by simp [sampleRun, reportedCommands, ofString_inj]
  installationId := isUuid4_uuidText (by norm_num) (by decide)
  uuid := ⟨by norm_num [sampleRun], (by decide : isVersion4 (4 * 16 ^ 19 + 8 * 16 ^ 15) = true)⟩
  version := hversion

/-- The outbox is never blocked just where its events are plain and no file makes the check
raise before others are sent. -/
theorem unblocked_iff (hzod : ZodDatetime datetime) :
    Unblocked python unicode datetime version outbox ↔
      Deliverable python unicode version outbox := by
  constructor
  · intro hunblocked
    have hplain : ∀ event ∈ validEvents python unicode outbox, isPlainEvent event = true := by
      intro event hmem
      obtain ⟨file, _, hread⟩ := exists_read_of_mem hmem
      exact (event_taken_iff hzod (readEvent_eq_event hread).2).mp (hunblocked.events event hmem)
    refine ⟨hplain, ?_, ?_⟩
    · exact (stored_iff fun _ hne hle hmem => sendEvents_accepted hzod hplain hne hle hmem).mp
        hunblocked.delivered
    · intro hversion
      have hreportable := sampleRun_reportable hversion
      obtain ⟨hvalid, htaken⟩ := hunblocked.built (sampleRun version) rfl hreportable
      exact (isPlainEvent_buildEvent unicode (sampleRun version)).mp
        ((event_taken_iff hzod hvalid).mp htaken)
  · intro hdeliverable
    have hsend : ∀ events ≠ [], events.length ≤ maxEventsPerRequest →
        (∀ event ∈ events, event ∈ validEvents python unicode outbox) →
        sendEvents python datetime events = some true := fun _ hne hle hmem =>
      sendEvents_accepted hzod hdeliverable.plain hne hle hmem
    have hevents : ∀ event ∈ validEvents python unicode outbox,
        usageEventSchema datetime event = true := fun event hmem =>
      (taken_of_plain hzod hmem (hdeliverable.plain event hmem)).2
    refine ⟨hevents, ?_, ?_, (stored_iff hsend).mpr hdeliverable.unstuck⟩
    · intro _ hne
      obtain ⟨hle, hmem⟩ := @nextBatch_events python unicode outbox
      exact usageEventBatchSchema_of_forall hne hle fun event hevent =>
        hevents event (hmem event hevent)
    · rintro run rfl hreportable
      have hvalid := isValidEvent_buildEvent hreportable
      refine ⟨hvalid, (event_taken_iff hzod hvalid).mpr ?_⟩
      exact (isPlainEvent_buildEvent unicode run).mpr (hdeliverable.version hreportable.version)

end Unblocked

/-! ### Sample outboxes -/

/-- The digits of ASCII. -/
def asciiUnicode : UnicodeData where
  decimal := asciiDecimal
  ascii := fun _ _ => rfl

/-- Times of days of the calendar. -/
def isoDatetime (text : CodePoints) : Bool :=
  (utcTimestamp asciiDigit).accepts text && decide (fieldsOf asciiDecimal text).Valid

theorem isoDatetime_zod : ZodDatetime isoDatetime where
  accepts := by
    intro text haccepts hvalid
    rw [isoDatetime, haccepts, decide_eq_true hvalid]
    rfl
  ascii := by
    intro text htaken
    rw [isoDatetime, Bool.and_eq_true] at htaken
    have hplain := plain_of_accepts (restrict_utcTimestamp asciiUnicode)
      (within_utcTimestamp asciiUnicode) htaken.1
    exact fun char hmem => (hplain char hmem).1
  closed := by
    intro text htaken
    rw [isoDatetime, Bool.and_eq_true, Pattern.accepts_iff] at htaken
    have hmem : text ∈ (Pattern.seqs ([.times (.one asciiDigit) 4, literal '-',
        .times (.one asciiDigit) 2, literal '-', .times (.one asciiDigit) 2, literal 'T',
        .times (.one asciiDigit) 2, literal ':', .times (.one asciiDigit) 2, literal ':',
        .times (.one asciiDigit) 2,
        .optional (.seq (literal '.') (.upTo (.one asciiDigit) 8))] ++
          [.one (is 'Z')])).language := htaken.1
    obtain ⟨char, hchar, hlast⟩ := Pattern.getLast?_of_mem_seqs hmem
    rw [hlast, Option.some.injEq]
    apply Fin.ext
    exact of_decide_eq_true hchar

/-- An outbox with one file, of one event. -/
def bytesOf (event : JsonValue) : List UInt8 :=
  (JsonValue.dumps (fun _ => []) event).map fun char => UInt8.ofNat char.val

def fileOf (event : JsonValue) : File where
  content := some (bytesOf event)

def sampleJson (event : JsonValue)
    (hdistinct : ∀ items, event = .dict items → (items.map Prod.fst).Nodup) : PythonJson where
  loads := fun bytes => if bytes = bytesOf event then .value event else .valueError
  floatText := fun _ => []
  distinct := by
    intro bytes items hloads
    split_ifs at hloads
    exact hdistinct items (JsonValue.Loaded.value.inj hloads)

theorem readEvent_fileOf {event : JsonValue}
    (hdistinct : ∀ items, event = .dict items → (items.map Prod.fst).Nodup)
    (hsize : (bytesOf event).length ≤ maxEventFileBytes)
    (hvalid : isValidEvent asciiUnicode event = some true) :
    readEvent (sampleJson event hdistinct) asciiUnicode (fileOf event) = .event event := by
  have htake : (bytesOf event).take (maxEventFileBytes + 1) = bytesOf event :=
    List.take_of_length_le (hsize.trans (Nat.le_succ _))
  have hloads : (sampleJson event hdistinct).loads (bytesOf event) = .value event := if_pos rfl
  simp only [readEvent, fileOf, htake, hloads, if_neg (Nat.not_lt.mpr hsize), hvalid]

def sampleEvent : JsonValue :=
  (sampleRun (ofString "1.2.0")).buildEvent

theorem sampleEvent_distinct (items : List (CodePoints × JsonValue))
    (heq : sampleEvent = .dict items) : (items.map Prod.fst).Nodup := by
  cases heq
  simp [ofString_inj]

set_option maxRecDepth 8000 in
theorem size_sampleEvent : (bytesOf sampleEvent).length ≤ maxEventFileBytes :=
  Nat.le_of_ble_eq_true rfl

theorem sampleVersion_reportable : isReportableVersion asciiUnicode (ofString "1.2.0") = true := by
  rfl

theorem unblocked_sample :
    Unblocked (sampleJson sampleEvent sampleEvent_distinct) asciiUnicode isoDatetime
      (ofString "1.2.0") [fileOf sampleEvent] := by
  have hvalid := isValidEvent_buildEvent (sampleRun_reportable sampleVersion_reportable)
  have hread := readEvent_fileOf sampleEvent_distinct size_sampleEvent hvalid
  have hversion : Plain (ofString "1.2.0") := by
    have hall : ((ofString "1.2.0").all fun char => isAscii char && isNotNewline char) = true := rfl
    intro char hmem
    have hchar := List.all_eq_true.mp hall char hmem
    rw [Bool.and_eq_true] at hchar
    exact ⟨hchar.1, of_decide_eq_true hchar.2⟩
  apply (unblocked_iff isoDatetime_zod).mpr
  refine ⟨?_, ?_, fun _ => hversion⟩
  · intro event hmem
    rw [validEvents, hread] at hmem
    rw [List.mem_singleton.mp hmem]
    exact (isPlainEvent_buildEvent asciiUnicode _).mpr hversion
  · intro hraises
    rw [raisesSome, hread] at hraises
    cases hraises

/-- An event of a time with a newline after it. -/
def lateEvent : JsonValue :=
  .dict [(ofString "event_id", .str (uuidText (4 * 16 ^ 19 + 8 * 16 ^ 15))),
    (ofString "installation_id", .str (uuidText (4 * 16 ^ 19 + 8 * 16 ^ 15))),
    (ofString "command", .str (ofString "deploy")),
    (ofString "succeeded", .bool true),
    (ofString "occurred_at", .str (ofString "2026-10-08T09:30:00Z\n")),
    (ofString "cli_version", .str (ofString "1.2.0"))]

theorem lateEvent_valid : isValidEvent asciiUnicode lateEvent = some true := by
  have huuid : isUuid4 (uuidText (4 * 16 ^ 19 + 8 * 16 ^ 15)) = true :=
    isUuid4_uuidText (by norm_num) (by decide)
  apply isValidEvent_of_fields true huuid huuid
  · simp [reportedCommands, ofString_inj]
  · rfl
  · rfl

theorem lateEvent_distinct (items : List (CodePoints × JsonValue))
    (heq : lateEvent = .dict items) : (items.map Prod.fst).Nodup := by
  cases heq
  simp [ofString_inj]

set_option maxRecDepth 8000 in
theorem size_lateEvent : (bytesOf lateEvent).length ≤ maxEventFileBytes :=
  Nat.le_of_ble_eq_true rfl

theorem lateEvent_not_plain : isPlainEvent lateEvent ≠ true := by
  intro hplain
  obtain ⟨htime, _⟩ := (isPlainEvent_of_fields _ _ _ _ _ _).mp hplain
  exact (htime newline (by decide)).2 rfl

/-- A last newline passes the CLI's check, so the outbox is blocked for good. -/
theorem newline_blocks_outbox : ¬ ∀ (python : PythonJson) (unicode : UnicodeData)
    (datetime : CodePoints → Bool), ZodDatetime datetime →
    ∀ version outbox, Unblocked python unicode datetime version outbox := by
  intro hunblocked
  have hblocked := hunblocked (sampleJson lateEvent lateEvent_distinct) asciiUnicode isoDatetime
    isoDatetime_zod (ofString "1.2.0") [fileOf lateEvent]
  have hread := readEvent_fileOf lateEvent_distinct size_lateEvent lateEvent_valid
  apply lateEvent_not_plain
  apply (event_taken_iff isoDatetime_zod lateEvent_valid).mp
  apply hblocked.events
  rw [validEvents, hread]
  exact List.mem_cons_self

end CanyonOS.Usage
