import CanyonOS.Lib.JsonValue
import CanyonOS.Lib.Lines
import Mathlib.Data.List.AList
import Mathlib.Data.List.Count

/-!
# Relayed streams

A streamed reply of a provider passes the gateway chunk by chunk. `_relay_llm_stream` reads the
usage out of its lines in passing; where the gateway asked for the usage event on the agent's
behalf, `_drop_usage_chunk` takes that event out again.
-/

namespace CanyonOS.Gateway.Streaming

open CodePoints
open JsonValue (Loaded)

abbrev Bytes := List UInt8

abbrev Counts := List (CodePoints × JsonValue)

abbrev Usage := AList fun _ : CodePoints => JsonValue

/-- The assignments of one call of `merge_stream_usage`, and whether it ended by raising. -/
structure Merged where
  counts : Counts := []
  raised : Bool := false

def newline : UInt8 := 10

def bytesOf (text : String) : Bytes :=
  text.toUTF8.data.toList

/-- What `bytes.strip` takes off. -/
def isSpace (byte : UInt8) : Bool :=
  byte ∈ [9, 10, 11, 12, 13, 32]

def strip (bytes : Bytes) : Bytes :=
  ((bytes.dropWhile isSpace).reverse.dropWhile isSpace).reverse

/-- A value that counts as false is replaced. -/
def orElse (value : Option JsonValue) (default : JsonValue) : JsonValue :=
  (value.filter JsonValue.isTruthy).getD default

/-! ### The providers -/

namespace OpenAI

/-- `dict.update`; what it takes from a value that is no dictionary is `pairs`, up to the keys that
are no strings, which nothing reads. -/
def update (pairs : JsonValue → Merged) : JsonValue → Merged
  | .dict counts => { counts }
  | value => pairs value

def mergeStreamUsage (pairs : JsonValue → Merged) (payload : Counts) : Merged :=
  let response := orElse (JsonValue.get payload (ofString "response")) (.dict [])
  match (JsonValue.get payload (ofString "usage")).filter JsonValue.isTruthy with
  | some usage => update pairs usage
  | none =>
      match response with
      | .dict response =>
          match (JsonValue.get response (ofString "usage")).filter JsonValue.isTruthy with
          | some usage => update pairs usage
          | none => {}
      | _ => { raised := true }

end OpenAI

namespace Anthropic

def mergeStreamUsage (payload : Counts) : Merged :=
  let incoming : Option JsonValue :=
    match JsonValue.get payload (ofString "type") with
    | some (.str type) =>
        if type = ofString "message_start" then
          match orElse (JsonValue.get payload (ofString "message")) (.dict []) with
          | .dict message => some (orElse (JsonValue.get message (ofString "usage")) (.dict []))
          | _ => none
        else if type = ofString "message_delta" then
          some (orElse (JsonValue.get payload (ofString "usage")) (.dict []))
        else some (.dict [])
    | _ => some (.dict [])
  match incoming with
  | some (.dict counts) => { counts := counts.filter fun entry => entry.2.isTruthy }
  | _ => { raised := true }

end Anthropic

/-! ### The relay -/

section Relay

variable (loads : Bytes → Loaded) (merge : Counts → Merged)

/-- `none` is what has no JSON; an error is raised past the caller's `except ValueError`. -/
def parseLlmStreamLine (line : Bytes) : Except Unit (Option JsonValue) :=
  if (bytesOf "data:").isPrefixOf line then
    let data := strip (line.drop (bytesOf "data:").length)
    if data = [] ∨ data = bytesOf "[DONE]" then .ok none
    else
      match loads data with
      | .value value => .ok (some value)
      | .valueError => .ok none
      | .recursionError => .error ()
  else .ok none

structure Reading where
  buf : Bytes := []
  usage : Usage := ∅
  streamError : Bool := false

def insertAll (usage : Usage) (counts : Counts) : Usage :=
  counts.foldl (fun usage count => usage.insert count.1 count.2) usage

def readLine (reading : Reading) (line : Bytes) : Reading :=
  match parseLlmStreamLine loads line with
  | .ok (some (.dict payload)) =>
      let merged := merge payload
      { reading with
        usage := insertAll reading.usage merged.counts
        streamError := reading.streamError || merged.raised }
  | .ok _ => reading
  | .error _ => { reading with streamError := true }

def readChunk (reading : Reading) (chunk : Bytes) : Reading :=
  let (lines, rest) := Lines.split newline (reading.buf ++ chunk)
  lines.foldl (readLine loads merge) { reading with buf := rest }

/-- The payload's `choices` is the empty list. -/
def choicesEmpty (payload : Option JsonValue) : Bool :=
  match payload with
  | some (.dict payload) =>
      match JsonValue.get payload (ofString "choices") with
      | some (.list []) => true
      | _ => false
  | _ => false

/-- The lines `_drop_usage_chunk` keeps; none when it raises at one. -/
def keepLines : List Bytes → Option Bytes
  | [] => some []
  | line :: lines =>
      match parseLlmStreamLine loads line with
      | .error _ => none
      | .ok payload =>
          (keepLines lines).map fun kept =>
            if choicesEmpty payload then kept else line ++ newline :: kept

/-- The bytes the agent gets, and the usage left for pricing. -/
structure Result where
  relayed : Bytes
  usage : Option Usage

def recorded (usage : Usage) : Option Usage :=
  if usage.entries.isEmpty then none else some usage

/-- The relay from one chunk to the end of the stream, through `_drop_usage_chunk` where the option
was added: a chunk is passed on before it is read. -/
def relay (addedUsage : Bool) (dropBuf : Bytes) (reading : Reading) : List Bytes → Result
  | [] =>
      { relayed := if addedUsage then dropBuf else []
        usage := recorded reading.usage }
  | chunk :: chunks =>
      if addedUsage then
        let (lines, dropRest) := Lines.split newline (dropBuf ++ chunk)
        match keepLines loads lines with
        | some kept =>
            let rest := relay addedUsage dropRest (readChunk loads merge reading chunk) chunks
            { rest with relayed := kept ++ rest.relayed }
        | none =>
            -- the relay is closed before its end
            { relayed := [], usage := if reading.streamError then recorded reading.usage else none }
      else
        let rest := relay addedUsage dropBuf (readChunk loads merge reading chunk) chunks
        { rest with relayed := chunk ++ rest.relayed }

/-! ### What a relay is for -/

/-- The event the option adds: no choices, and the usage of the whole request. -/
def usageOnly (line : Bytes) : Bool :=
  match parseLlmStreamLine loads line with
  | .ok (some (.dict payload)) =>
      choicesEmpty (some (.dict payload)) &&
        ((JsonValue.get payload (ofString "usage")).filter JsonValue.isTruthy).isSome
  | _ => false

/-- The counts a line reports. -/
def counts (line : Bytes) : Counts :=
  match parseLlmStreamLine loads line with
  | .ok (some (.dict payload)) => (merge payload).counts
  | _ => []

/-- The last value the lines report for a count. -/
def lastReported (lines : List Bytes) (key : CodePoints) : Option JsonValue :=
  ((lines.flatMap (counts loads merge)).reverse.find? fun count => count.1 = key).map Prod.snd

/-- The stream without the lines of the added event. -/
def withoutUsage (stream : Bytes) : Bytes :=
  let (lines, rest) := Lines.split newline stream
  ((lines.filter fun line => !usageOnly loads line).flatMap (· ++ [newline])) ++
    if usageOnly loads rest then [] else rest

structure RelaysWhole (addedUsage : Bool) (chunks : List Bytes) : Prop where
  chunking : relay loads merge addedUsage [] {} chunks =
    relay loads merge addedUsage [] {} [chunks.flatten]
  relayed : (relay loads merge addedUsage [] {} chunks).relayed =
    if addedUsage then withoutUsage loads chunks.flatten else chunks.flatten
  usage : ∀ key, ((relay loads merge addedUsage [] {} chunks).usage.bind (·.lookup key)) =
    lastReported loads merge ((Lines.split newline chunks.flatten).1 ++
      [(Lines.split newline chunks.flatten).2]) key

/-- The line has an empty `choices`, as the added event has. -/
def looksUsageOnly (line : Bytes) : Bool :=
  match parseLlmStreamLine loads line with
  | .ok payload => choicesEmpty payload
  | .error _ => false

/-- No other line looks like the added event or stops the filter, and what follows the last newline
is neither that event nor reports anything new. -/
structure ReadsWhole (addedUsage : Bool) (stream : Bytes) : Prop where
  lines : addedUsage → ∀ line ∈ (Lines.split newline stream).1,
    parseLlmStreamLine loads line ≠ .error () ∧
      (looksUsageOnly loads line → usageOnly loads line)
  rest : addedUsage → ¬ usageOnly loads (Lines.split newline stream).2
  counts : ∀ key value, lastReported loads merge [(Lines.split newline stream).2] key = some value →
    lastReported loads merge (Lines.split newline stream).1 key = some value

variable {loads merge}

/-! ### The usage -/

theorem lookup_insertAll (usage : Usage) (counts : Counts) (key : CodePoints) :
    (insertAll usage counts).lookup key =
      ((counts.reverse.find? fun count => count.1 = key).map Prod.snd).or (usage.lookup key) := by
  unfold insertAll
  induction counts generalizing usage with
  | nil => rfl
  | cons count counts ih =>
      rw [List.foldl_cons, ih, List.reverse_cons, List.find?_append]
      cases hfound : counts.reverse.find? fun count => count.1 = key with
      | some found => rfl
      | none =>
          by_cases heq : count.1 = key
          · subst heq
            simp
          · simp [heq, AList.lookup_insert_ne (Ne.symm heq)]

theorem lookup_recorded (usage : Usage) (key : CodePoints) :
    (recorded usage).bind (·.lookup key) = usage.lookup key := by
  unfold recorded
  split
  case isTrue hempty =>
    have hentries : usage.entries = [] := List.isEmpty_iff.mp hempty
    have husage : usage = ∅ := AList.ext hentries
    rw [husage]
    rfl
  case isFalse => rfl

theorem buf_readLine (reading : Reading) (line : Bytes) :
    (readLine loads merge reading line).buf = reading.buf := by
  unfold readLine
  split <;> rfl

theorem usage_readLine (reading : Reading) (line : Bytes) :
    (readLine loads merge reading line).usage =
      insertAll reading.usage (counts loads merge line) := by
  unfold readLine counts
  cases parseLlmStreamLine loads line with
  | error _ => rfl
  | ok payload =>
      cases payload with
      | none => rfl
      | some payload => cases payload <;> rfl

theorem insertAll_append (usage : Usage) (first second : Counts) :
    insertAll usage (first ++ second) = insertAll (insertAll usage first) second :=
  List.foldl_append

theorem readLines_spec (reading : Reading) (lines : List Bytes) :
    (lines.foldl (readLine loads merge) reading).buf = reading.buf ∧
      (lines.foldl (readLine loads merge) reading).usage =
        insertAll reading.usage (lines.flatMap (counts loads merge)) := by
  induction lines generalizing reading with
  | nil => exact ⟨rfl, rfl⟩
  | cons line lines ih =>
      obtain ⟨hbuf, husage⟩ := ih (readLine loads merge reading line)
      rw [List.foldl_cons, hbuf, husage, buf_readLine, usage_readLine, List.flatMap_cons,
        insertAll_append]
      exact ⟨rfl, rfl⟩

theorem readChunk_spec (loads : Bytes → Loaded) (merge : Counts → Merged) (reading : Reading) (chunk : Bytes) :
    (readChunk loads merge reading chunk).buf =
        (Lines.split newline (reading.buf ++ chunk)).2 ∧
      (readChunk loads merge reading chunk).usage = insertAll reading.usage
        ((Lines.split newline (reading.buf ++ chunk)).1.flatMap (counts loads merge)) :=
  readLines_spec _ _

/-- The usage that is read of a whole text, from what was read before. -/
def usageOf (loads : Bytes → Loaded) (merge : Counts → Merged) (reading : Reading)
    (text : Bytes) : Usage :=
  insertAll reading.usage
    ((Lines.split newline (reading.buf ++ text)).1.flatMap (counts loads merge))

theorem usageOf_readChunk (reading : Reading) (chunk text : Bytes) :
    usageOf loads merge (readChunk loads merge reading chunk) text =
      usageOf loads merge reading (chunk ++ text) := by
  obtain ⟨hbuf, husage⟩ := readChunk_spec loads merge reading chunk
  unfold usageOf
  rw [hbuf, husage, ← List.append_assoc, Lines.split_append newline (reading.buf ++ chunk) text,
    List.flatMap_append, insertAll_append]

theorem usageOf_nil {reading : Reading} (hbuf : newline ∉ reading.buf) :
    usageOf loads merge reading [] = reading.usage := by
  unfold usageOf
  rw [List.append_nil, Lines.split_of_notMem hbuf]
  rfl

theorem newline_notMem_readChunk (loads : Bytes → Loaded) (merge : Counts → Merged) (reading : Reading) (chunk : Bytes) :
    newline ∉ (readChunk loads merge reading chunk).buf := by
  rw [(readChunk_spec loads merge reading chunk).1]
  exact (Lines.split_spec newline _).2.2

theorem relay_untouched (dropBuf : Bytes) {reading : Reading} (hbuf : newline ∉ reading.buf)
    (chunks : List Bytes) :
    relay loads merge false dropBuf reading chunks =
      { relayed := chunks.flatten
        usage := recorded (usageOf loads merge reading chunks.flatten) } := by
  induction chunks generalizing reading with
  | nil =>
      rw [List.flatten_nil, usageOf_nil hbuf]
      rfl
  | cons chunk chunks ih =>
      have hrest := ih (newline_notMem_readChunk loads merge reading chunk)
      rw [relay, if_neg (by simp), hrest, usageOf_readChunk]
      rfl

/-! ### The filter -/

/-- The lines that stay, with the newline of each. -/
def keptLines (drops : Bytes → Bool) (lines : List Bytes) : Bytes :=
  (lines.filter fun line => !drops line).flatMap (· ++ [newline])

theorem keptLines_append (drops : Bytes → Bool) (first second : List Bytes) :
    keptLines drops (first ++ second) = keptLines drops first ++ keptLines drops second := by
  rw [keptLines, List.filter_append, List.flatMap_append]
  rfl

theorem count_keptLines (drops : Bytes → Bool) {lines : List Bytes}
    (hlines : ∀ line ∈ lines, newline ∉ line) :
    (keptLines drops lines).count newline = (lines.filter fun line => !drops line).length := by
  unfold keptLines
  induction lines with
  | nil => rfl
  | cons line lines ih =>
      obtain ⟨hline, hlines⟩ := List.forall_mem_cons.mp hlines
      by_cases hdrop : drops line
      · rw [List.filter_cons_of_neg (by simp [hdrop])]
        exact ih hlines
      · rw [List.filter_cons_of_pos (by simp [hdrop]), List.flatMap_cons, List.count_append,
          List.count_append, ih hlines, List.count_eq_zero_of_not_mem hline]
        simp
        omega

theorem keepLines_of_ok {lines : List Bytes}
    (hok : ∀ line ∈ lines, parseLlmStreamLine loads line ≠ .error ()) :
    keepLines loads lines = some (keptLines (looksUsageOnly loads) lines) := by
  induction lines with
  | nil => rfl
  | cons line lines ih =>
      obtain ⟨hline, hlines⟩ := List.forall_mem_cons.mp hok
      cases hparsed : parseLlmStreamLine loads line with
      | error _ => exact absurd hparsed hline
      | ok payload =>
          have hlooks : looksUsageOnly loads line = choicesEmpty payload := by
            rw [looksUsageOnly, hparsed]
          rw [keepLines, hparsed]
          simp only [ih hlines, Option.map_some, ← hlooks]
          by_cases hdrop : looksUsageOnly loads line
          · rw [if_pos hdrop, keptLines, keptLines,
              List.filter_cons_of_neg (by simp [hdrop])]
          · rw [if_neg hdrop, keptLines, keptLines,
              List.filter_cons_of_pos (by simp [hdrop]), List.flatMap_cons, List.append_assoc]
            rfl

theorem keepLines_of_raised {lines : List Bytes}
    (hraised : ∃ line ∈ lines, parseLlmStreamLine loads line = .error ()) :
    keepLines loads lines = none := by
  induction lines with
  | nil =>
      obtain ⟨line, hmem, -⟩ := hraised
      cases hmem
  | cons line lines ih =>
      cases hparsed : parseLlmStreamLine loads line with
      | error _ => rw [keepLines, hparsed]
      | ok payload =>
          have htail : ∃ other ∈ lines, parseLlmStreamLine loads other = .error () := by
            obtain ⟨other, hmem, hother⟩ := hraised
            rcases List.mem_cons.mp hmem with rfl | hmem
            · rw [hparsed] at hother
              cases hother
            · exact ⟨other, hmem, hother⟩
          rw [keepLines, hparsed]
          simp only [ih htail, Option.map_none]

theorem relay_filtered {reading : Reading} (hbuf : newline ∉ reading.buf) (chunks : List Bytes)
    (hok : ∀ line ∈ (Lines.split newline (reading.buf ++ chunks.flatten)).1,
      parseLlmStreamLine loads line ≠ .error ()) :
    relay loads merge true reading.buf reading chunks =
      { relayed := keptLines (looksUsageOnly loads)
            (Lines.split newline (reading.buf ++ chunks.flatten)).1 ++
          (Lines.split newline (reading.buf ++ chunks.flatten)).2
        usage := recorded (usageOf loads merge reading chunks.flatten) } := by
  induction chunks generalizing reading with
  | nil =>
      rw [List.flatten_nil, usageOf_nil hbuf, List.append_nil, Lines.split_of_notMem hbuf]
      rfl
  | cons chunk chunks ih =>
      obtain ⟨hread, -⟩ := readChunk_spec loads merge reading chunk
      have hsplit := Lines.split_append newline (reading.buf ++ chunk)
        chunks.flatten
      rw [← hread, List.append_assoc] at hsplit
      rw [List.flatten_cons, hsplit] at hok
      have hkeep := keepLines_of_ok fun line hmem => hok line (List.mem_append_left _ hmem)
      have hrest := ih (newline_notMem_readChunk loads merge reading chunk)
        fun line hmem => hok line (List.mem_append_right _ hmem)
      rw [relay, if_pos rfl]
      simp only [hkeep, ← hread, hrest]
      rw [List.flatten_cons, hsplit, usageOf_readChunk, keptLines_append, List.append_assoc]

theorem looksUsageOnly_of_usageOnly {line : Bytes} (husage : usageOnly loads line) :
    looksUsageOnly loads line := by
  unfold usageOnly at husage
  unfold looksUsageOnly
  split at husage
  case h_1 payload hparsed =>
    rw [hparsed]
    exact (Bool.and_eq_true_iff.mp husage).1
  case h_2 => cases husage

theorem not_usageOnly_of_raised {line : Bytes}
    (hraised : parseLlmStreamLine loads line = .error ()) : usageOnly loads line = false := by
  rw [usageOnly, hraised]

theorem filter_looks_sublist (loads : Bytes → Loaded) (lines : List Bytes) :
    (lines.filter fun line => !looksUsageOnly loads line).Sublist
      (lines.filter fun line => !usageOnly loads line) := by
  refine List.monotone_filter_right lines fun line hkept => ?_
  by_contra hdropped
  have husage : usageOnly loads line := by simpa using hdropped
  have hlooks := looksUsageOnly_of_usageOnly husage
  rw [hlooks] at hkept
  cases hkept

/-- A line the filter raises at cuts the relay short: a newline is missing from what is relayed. -/
theorem count_relay_of_raised {reading : Reading} (hbuf : newline ∉ reading.buf)
    (chunks : List Bytes)
    (hraised : ∃ line ∈ (Lines.split newline (reading.buf ++ chunks.flatten)).1,
      parseLlmStreamLine loads line = .error ()) :
    (relay loads merge true reading.buf reading chunks).relayed.count newline <
      ((Lines.split newline (reading.buf ++ chunks.flatten)).1.filter
        fun line => !usageOnly loads line).length := by
  induction chunks generalizing reading with
  | nil =>
      rw [List.flatten_nil, List.append_nil, Lines.split_of_notMem hbuf] at hraised
      obtain ⟨line, hmem, -⟩ := hraised
      cases hmem
  | cons chunk chunks ih =>
      obtain ⟨hread, -⟩ := readChunk_spec loads merge reading chunk
      have hsplit := Lines.split_append newline (reading.buf ++ chunk)
        chunks.flatten
      rw [← hread, List.append_assoc] at hsplit
      rw [List.flatten_cons, hsplit] at hraised ⊢
      rw [List.filter_append, List.length_append, relay, if_pos rfl]
      by_cases hhere : ∃ line ∈ (Lines.split newline (reading.buf ++ chunk)).1,
          parseLlmStreamLine loads line = .error ()
      · simp only [keepLines_of_raised hhere]
        obtain ⟨line, hmem, hline⟩ := hhere
        have hkept : line ∈ (Lines.split newline (reading.buf ++ chunk)).1.filter
            fun line => !usageOnly loads line :=
          List.mem_filter.mpr ⟨hmem, by rw [not_usageOnly_of_raised hline]; rfl⟩
        have hpositive := List.length_pos_of_mem hkept
        rw [List.count_nil]
        omega
      · have hok : ∀ line ∈ (Lines.split newline (reading.buf ++ chunk)).1,
            parseLlmStreamLine loads line ≠ .error () :=
          fun line hmem hline => hhere ⟨line, hmem, hline⟩
        have hlater : ∃ line ∈ (Lines.split newline
            ((readChunk loads merge reading chunk).buf ++ chunks.flatten)).1,
            parseLlmStreamLine loads line = .error () := by
          obtain ⟨line, hmem, hline⟩ := hraised
          rcases List.mem_append.mp hmem with hmem | hmem
          · exact absurd hline (hok line hmem)
          · exact ⟨line, hmem, hline⟩
        have hrest := ih (newline_notMem_readChunk loads merge reading chunk) hlater
        have hfirst := List.Sublist.length_le (filter_looks_sublist loads
          (Lines.split newline (reading.buf ++ chunk)).1)
        simp only [keepLines_of_ok hok, ← hread, List.count_append]
        rw [count_keptLines _ (Lines.split_spec newline _).2.1]
        omega

/-! ### The whole stream -/

theorem withoutUsage_eq (stream : Bytes) :
    withoutUsage loads stream =
      keptLines (usageOnly loads) (Lines.split newline stream).1 ++
        if usageOnly loads (Lines.split newline stream).2 then []
        else (Lines.split newline stream).2 := rfl

theorem not_usageOnly_nil : usageOnly loads [] = false := rfl

theorem count_withoutUsage (stream : Bytes) :
    (withoutUsage loads stream).count newline =
      ((Lines.split newline stream).1.filter fun line => !usageOnly loads line).length := by
  obtain ⟨-, hlines, hrest⟩ := Lines.split_spec newline stream
  rw [withoutUsage_eq, List.count_append, count_keptLines _ hlines]
  split
  case isTrue => rfl
  case isFalse => rw [List.count_eq_zero_of_not_mem hrest, Nat.add_zero]

/-- The filter takes out the added event and nothing else, just when no other line looks like it and
it is not the unfinished last line. -/
theorem keptLines_looks_eq_iff (stream : Bytes) :
    keptLines (looksUsageOnly loads) (Lines.split newline stream).1 ++
        (Lines.split newline stream).2 = withoutUsage loads stream ↔
      (∀ line ∈ (Lines.split newline stream).1,
        looksUsageOnly loads line → usageOnly loads line) ∧
        ¬ usageOnly loads (Lines.split newline stream).2 := by
  obtain ⟨-, hlines, hrest⟩ := Lines.split_spec newline stream
  constructor
  · intro heq
    have hcount := congrArg (List.count newline) heq
    rw [count_withoutUsage, List.count_append, count_keptLines _ hlines,
      List.count_eq_zero_of_not_mem hrest, Nat.add_zero] at hcount
    have hfilter := (filter_looks_sublist loads (Lines.split newline stream).1).eq_of_length hcount
    constructor
    · intro line hmem hlooks
      by_contra husage
      have hkept : line ∈ (Lines.split newline stream).1.filter
          fun line => !usageOnly loads line := List.mem_filter.mpr ⟨hmem, by simpa using husage⟩
      rw [← hfilter] at hkept
      have hnot := (List.mem_filter.mp hkept).2
      rw [hlooks] at hnot
      cases hnot
    · intro husage
      have hsame : keptLines (looksUsageOnly loads) (Lines.split newline stream).1 =
          keptLines (usageOnly loads) (Lines.split newline stream).1 := by
        rw [keptLines, hfilter]
        rfl
      rw [withoutUsage_eq, hsame, if_pos husage] at heq
      have hempty := List.append_cancel_left heq
      rw [hempty, not_usageOnly_nil] at husage
      cases husage
  · rintro ⟨hlooks, husage⟩
    have hsame : keptLines (looksUsageOnly loads) (Lines.split newline stream).1 =
        keptLines (usageOnly loads) (Lines.split newline stream).1 := by
      unfold keptLines
      congr 1
      refine List.filter_congr fun line hmem => ?_
      congr 1
      exact Bool.eq_iff_iff.mpr ⟨hlooks line hmem, looksUsageOnly_of_usageOnly⟩
    rw [withoutUsage_eq, hsame, if_neg husage]

theorem lastReported_append (first second : List Bytes) (key : CodePoints) :
    lastReported loads merge (first ++ second) key =
      (lastReported loads merge second key).or (lastReported loads merge first key) := by
  unfold lastReported
  rw [List.flatMap_append, List.reverse_append, List.find?_append]
  cases (second.flatMap (counts loads merge)).reverse.find? fun count => count.1 = key <;> rfl

theorem lookup_usageOf (stream : Bytes) (key : CodePoints) :
    (recorded (usageOf loads merge {} stream)).bind (·.lookup key) =
      lastReported loads merge (Lines.split newline stream).1 key := by
  rw [lookup_recorded, usageOf, lookup_insertAll]
  exact Option.or_none

/-- The recorded usage is the last reported one, just when the unfinished line has no news. -/
theorem usage_eq_iff (loads : Bytes → Loaded) (merge : Counts → Merged) (stream : Bytes) :
    (∀ key, (recorded (usageOf loads merge {} stream)).bind (·.lookup key) =
        lastReported loads merge ((Lines.split newline stream).1 ++
          [(Lines.split newline stream).2]) key) ↔
      ∀ key value, lastReported loads merge [(Lines.split newline stream).2] key = some value →
        lastReported loads merge (Lines.split newline stream).1 key = some value := by
  refine forall_congr' fun key => ?_
  rw [lookup_usageOf, lastReported_append]
  cases lastReported loads merge [(Lines.split newline stream).2] key with
  | none => simp
  | some value => simp

theorem relay_eq_of_ok (merge : Counts → Merged) {addedUsage : Bool} {stream : Bytes}
    (hok : addedUsage → ∀ line ∈ (Lines.split newline stream).1,
      parseLlmStreamLine loads line ≠ .error ())
    {chunks : List Bytes} (hstream : chunks.flatten = stream) :
    relay loads merge addedUsage [] {} chunks =
      { relayed :=
          if addedUsage then
            keptLines (looksUsageOnly loads) (Lines.split newline stream).1 ++
              (Lines.split newline stream).2
          else stream
        usage := recorded (usageOf loads merge {} stream) } := by
  subst hstream
  cases addedUsage with
  | false => exact relay_untouched [] List.not_mem_nil chunks
  | true => exact @relay_filtered loads merge {} List.not_mem_nil chunks (hok rfl)

/-- Every provider's stream, cut at any places. -/
theorem relays_whole_iff (loads : Bytes → Loaded) (merge : Counts → Merged) (addedUsage : Bool)
    (chunks : List Bytes) :
    RelaysWhole loads merge addedUsage chunks ↔
      ReadsWhole loads merge addedUsage chunks.flatten := by
  by_cases hok : addedUsage → ∀ line ∈ (Lines.split newline chunks.flatten).1,
      parseLlmStreamLine loads line ≠ .error ()
  · have hrelay := relay_eq_of_ok merge hok rfl
    have hwhole := relay_eq_of_ok merge hok
      (show [chunks.flatten].flatten = chunks.flatten by simp)
    have husage := usage_eq_iff loads merge chunks.flatten
    constructor
    · rintro ⟨-, hrelayed, hcounts⟩
      rw [hrelay] at hrelayed hcounts
      refine ⟨fun hadded line hmem => ⟨hok hadded line hmem, ?_⟩, fun hadded => ?_,
        husage.mp hcounts⟩
      · subst hadded
        exact ((keptLines_looks_eq_iff chunks.flatten).mp hrelayed).1 line hmem
      · subst hadded
        exact ((keptLines_looks_eq_iff chunks.flatten).mp hrelayed).2
    · rintro ⟨hlines, hrest, hcounts⟩
      refine ⟨hrelay.trans hwhole.symm, ?_, ?_⟩
      · rw [hrelay]
        cases addedUsage with
        | false => rfl
        | true =>
            exact (keptLines_looks_eq_iff chunks.flatten).mpr
              ⟨fun line hmem => (hlines rfl line hmem).2, hrest rfl⟩
      · rw [hrelay]
        exact husage.mpr hcounts
  · -- the filter raises, so neither side holds
    push Not at hok
    obtain ⟨rfl, line, hmem, hline⟩ := hok
    apply iff_of_false
    · rintro ⟨-, hrelayed, -⟩
      have hcount := @count_relay_of_raised loads merge {} List.not_mem_nil chunks
        ⟨line, hmem, hline⟩
      have hsame := congrArg (List.count newline) hrelayed
      rw [if_pos rfl, count_withoutUsage] at hsame
      change (relay loads merge true [] {} chunks).relayed.count newline < _ at hcount
      rw [hsame] at hcount
      exact lt_irrefl _ hcount
    · rintro ⟨hlines, -, -⟩
      exact (hlines rfl line hmem).1 hline

end Relay

/-- The data of an added event. -/
def usageData : Bytes :=
  bytesOf "\x7b\"choices\": [], \"usage\": \x7b\"total_tokens\": 7\x7d\x7d"

/-- The parser, on that data. -/
def usageLoads (data : Bytes) : Loaded :=
  if data = usageData then
    .value (.dict [(ofString "choices", .list []),
      (ofString "usage", .dict [(ofString "total_tokens", .int 7)])])
  else .valueError

/-- The added event is the last line, with no newline: the agent gets it, and nothing is priced. -/
theorem unfinished_usage_relayed :
    ¬ RelaysWhole usageLoads (OpenAI.mergeStreamUsage fun _ => { raised := true }) true
      [bytesOf "data: " ++ usageData] := by
  intro hwhole
  have hrelayed := hwhole.relayed
  have hdiffer : (relay usageLoads (OpenAI.mergeStreamUsage fun _ => { raised := true }) true [] {}
      [bytesOf "data: " ++ usageData]).relayed ≠
        withoutUsage usageLoads (bytesOf "data: " ++ usageData) := by
    decide +kernel
  rw [if_pos rfl, List.flatten_cons, List.flatten_nil, List.append_nil] at hrelayed
  exact hdiffer hrelayed

end CanyonOS.Gateway.Streaming
