import Mathlib
import CanyonOS.Gateway.Bedrock
import CanyonOS.Lib.Prototypes
import CanyonOS.Telemetry.Rollups

/-!
# Ingest of spans

The API maps each span of an export to a row of `otel_spans` and inserts the rows in chunks
(`telemetry.service.ts`, `telemetry.repo.ts`). A chunk with a row that Postgres cannot hold is
refused as a whole, and so is the export, each time the exporter sends it again.
-/

namespace CanyonOS.Telemetry.Ingest

open EventStream JsValue

/-! ### An export -/

mutual

/-- A value of an attribute, by the fields that are set. -/
inductive OtlpAnyValue where
  | mk (stringValue : Option CodeUnits) (boolValue : Option Bool) (intValue : Option ℤ)
    (doubleValue : Option FloatValue) (arrayValue : Option (List OtlpAnyValue))
    (kvlistValue : Option (List OtlpKeyValue)) (bytesValue : Option Bytes)

inductive OtlpKeyValue where
  | mk (key : Option CodeUnits) (value : Option OtlpAnyValue)

end

structure OtlpEvent where
  timeUnixNano : Option ℕ
  name : Option CodeUnits
  attributes : List OtlpKeyValue

structure OtlpStatus where
  code : Option ℤ
  message : Option CodeUnits

structure OtlpSpan where
  traceId : Option Bytes
  spanId : Option Bytes
  parentSpanId : Option Bytes
  name : Option CodeUnits
  kind : Option ℤ
  startTimeUnixNano : Option ℕ
  endTimeUnixNano : Option ℕ
  attributes : List OtlpKeyValue
  events : List OtlpEvent
  status : Option OtlpStatus

/-- The spans of each scope of each resource. -/
abbrev ExportRequest := List (List (List OtlpSpan))

/-! ### Rows -/

structure EventRow where
  timeUnixNano : ℕ
  name : CodeUnits
  attributes : ScriptValue

/-- A row of `otel_spans`. -/
structure SpanRow where
  spanId : CodeUnits
  traceId : CodeUnits
  parentSpanId : Option CodeUnits
  name : CodeUnits
  kind : CodeUnits
  startTimeUnixNano : ℕ
  endTimeUnixNano : ℕ
  statusCode : CodeUnits
  statusMessage : Option CodeUnits
  attributes : ScriptValue
  events : List EventRow
  input : Option CodeUnits
  output : Option CodeUnits

def spanKindNames : List CodeUnits :=
  ["SPAN_KIND_UNSPECIFIED", "SPAN_KIND_INTERNAL", "SPAN_KIND_SERVER", "SPAN_KIND_CLIENT",
    "SPAN_KIND_PRODUCER", "SPAN_KIND_CONSUMER"].map ascii

def statusCodeNames : List CodeUnits :=
  ["STATUS_CODE_UNSET", "STATUS_CODE_OK", "STATUS_CODE_ERROR"].map ascii

/-- The name with a number, the first one where there is none. -/
def nameOf (names : List CodeUnits) (number : Option ℤ) : CodeUnits :=
  let first := names.headD []
  match number.getD 0 with
  | .ofNat index => names.getD index first
  | .negSucc _ => first

def projectIdAttribute : CodeUnits :=
  ascii "canyon.project.id"

def producerProjectIdAttribute : CodeUnits :=
  ascii "project_id"

def inputAttribute : CodeUnits :=
  ascii "gen_ai.prompt"

def outputAttribute : CodeUnits :=
  ascii "gen_ai.completion"

def absentSpanId : CodeUnits :=
  List.replicate 16 48

def hex (bytes : Option Bytes) : CodeUnits :=
  (bytes.getD []).flatMap fun byte => [hexDigit (byte.toNat / 16), hexDigit (byte.toNat % 16)]

/-- `Buffer.toString` to base64. -/
def base64 (bytes : Bytes) : CodeUnits :=
  ascii (String.ofList (Gateway.Bedrock.b64encode bytes))

mutual

/-- What `JSON.stringify` reads of a value: the keys an object has itself, indices first. -/
def toJson : ScriptValue → JsValue
  | .null => .null
  | .bool value => .bool value
  | .number (.finite value) => .number (some value)
  | .number _ => .number none
  | .string text => .string text
  | .array items => .array (toJsonItems items)
  | .object own _ => .object (Rollups.fromEntries (toJsonEntries own))

def toJsonItems : List ScriptValue → List JsValue
  | [] => []
  | item :: items => toJson item :: toJsonItems items

def toJsonEntries : List ScriptValue.Entry → List JsEntry
  | [] => []
  | (key, value) :: entries => (key, toJson value) :: toJsonEntries entries

end

section Mapping

variable (round : ℚ → FloatValue) (numberText : ℚ → CodeUnits)

mutual

def attributeValue : OtlpAnyValue → ScriptValue
  | .mk (some text) _ _ _ _ _ _ => .string text
  | .mk none (some value) _ _ _ _ _ => .bool value
  | .mk none none (some value) _ _ _ _ => .number (round value)
  | .mk none none none (some value) _ _ _ => .number value
  | .mk none none none none (some values) _ _ => .array (attributeValues values)
  | .mk none none none none none (some entries) _ =>
      (settings entries).foldl (fun target entry => target.set entry.1 entry.2) .empty
  | .mk none none none none none none (some bytes) => .string (base64 bytes)
  | .mk none none none none none none none => .null

def attributeValues : List OtlpAnyValue → List ScriptValue
  | [] => []
  | value :: values => attributeValue value :: attributeValues values

/-- What `flatten_attributes` sets, in order: an entry without a key or with an empty one is left
out. -/
def settings : List OtlpKeyValue → List ScriptValue.Entry
  | [] => []
  | .mk (some (unit :: key)) (some value) :: entries =>
      (unit :: key, attributeValue value) :: settings entries
  | .mk (some (unit :: key)) none :: entries => (unit :: key, .null) :: settings entries
  | .mk _ _ :: entries => settings entries

end

def flattenAttributes (entries : List OtlpKeyValue) : ScriptValue :=
  (settings round entries).foldl (fun target entry => target.set entry.1 entry.2) .empty

/-- A text as it is, another value as JSON. -/
def payloadColumn : Option ScriptValue → Option CodeUnits
  | none | some .null => none
  | some (.string text) => some text
  | some value => some (stringify numberText (toJson value))

def mapEvent (event : OtlpEvent) : EventRow where
  timeUnixNano := event.timeUnixNano.getD 0
  name := event.name.getD []
  attributes := flattenAttributes round event.attributes

/-- JavaScript's `??`. -/
def coalesce (value other : Option ScriptValue) : Option ScriptValue :=
  match value with
  | none | some .null => other
  | some value => some value

/-- The attributes of a span, with the project under the key the dashboard reads. -/
def spanAttributes (span : OtlpSpan) : ScriptValue :=
  let attributes := flattenAttributes round span.attributes
  match coalesce (attributes.get projectIdAttribute)
      (attributes.get producerProjectIdAttribute) with
  | some projectId => attributes.set projectIdAttribute projectId
  | none => attributes

/-- The row of a span; none where it would be unusable. -/
def mapSpan (span : OtlpSpan) : Option SpanRow :=
  if hex span.spanId = [] ∨ hex span.traceId = [] then none
  else
    match span.endTimeUnixNano with
    | none | some 0 => none
    | some endTime =>
        let attributes := spanAttributes round span
        let parentSpanId := hex span.parentSpanId
        some
          { spanId := hex span.spanId
            traceId := hex span.traceId
            parentSpanId :=
              if parentSpanId ≠ [] ∧ parentSpanId ≠ absentSpanId then some parentSpanId else none
            name := span.name.getD []
            kind := nameOf spanKindNames span.kind
            startTimeUnixNano := span.startTimeUnixNano.getD 0
            endTimeUnixNano := endTime
            statusCode := nameOf statusCodeNames (span.status.bind OtlpStatus.code)
            statusMessage := span.status.bind OtlpStatus.message
            attributes := attributes
            events := span.events.map (mapEvent round)
            input := payloadColumn numberText (attributes.get inputAttribute)
            output := payloadColumn numberText (attributes.get outputAttribute) }

end Mapping

/-! ### The table -/

def EventRow.texts (event : EventRow) : List CodeUnits :=
  event.name :: event.attributes.texts

/-- The texts of a row, and those in its two `jsonb` columns. -/
def SpanRow.texts (row : SpanRow) : List CodeUnits :=
  [row.spanId, row.traceId, row.name, row.kind, row.statusCode] ++ row.parentSpanId.toList ++
    row.statusMessage.toList ++ row.input.toList ++ row.output.toList ++ row.attributes.texts ++
    row.events.flatMap EventRow.texts

/-- What Postgres can hold: no U+0000, and integers of 64 bits with a sign. -/
def Storable (row : SpanRow) : Prop :=
  (∀ text ∈ row.texts, (0 : CodeUnit) ∉ text) ∧ row.startTimeUnixNano < 2 ^ 63 ∧
    row.endTimeUnixNano < 2 ^ 63

instance decidableStorable : DecidablePred Storable :=
  fun _ => inferInstanceAs (Decidable (_ ∧ _))

/-- The row is added unless there is one with its id. -/
def insertRow (table : List SpanRow) (row : SpanRow) : List SpanRow :=
  if table.any fun stored => stored.spanId = row.spanId then table else table ++ [row]

/-- One `INSERT`: all rows or none. -/
def insertChunk (table chunk : List SpanRow) : Option (List SpanRow) :=
  if ∀ row ∈ chunk, Storable row then some (chunk.foldl insertRow table) else none

structure IngestOutcome where
  accepted : ℕ
  rejected : ℕ

/-- What an ingest leaves in the table, and its outcome; none where it raises. -/
structure Ingested where
  table : List SpanRow
  outcome : Option IngestOutcome

/-- The table after the chunks, and whether all of them could be inserted. -/
def insertChunks : List SpanRow → List (List SpanRow) → List SpanRow × Bool
  | table, [] => (table, true)
  | table, chunk :: chunks =>
      match insertChunk table chunk with
      | some table => insertChunks table chunks
      | none => (table, false)

def insertChunkSize : ℕ := 500

def insertSpans (table rows : List SpanRow) : List SpanRow × Bool :=
  insertChunks table (Rollups.slices insertChunkSize rows)

section Ingest

variable (round : ℚ → FloatValue) (numberText : ℚ → CodeUnits)

def spansOf (request : ExportRequest) : List OtlpSpan :=
  request.flatten.flatten

/-- `ingest_trace_export` of an export that could be decoded. -/
def ingestTraceExport (table : List SpanRow) (request : ExportRequest) : Ingested :=
  let rows := (spansOf request).filterMap (mapSpan round numberText)
  let (table, inserted) := insertSpans table rows
  { table := table
    outcome :=
      if inserted then
        some { accepted := rows.length, rejected := (spansOf request).length - rows.length }
      else none }

/-! ### One span -/

/-- A span with its own id, a trace and an end. -/
def Usable (span : OtlpSpan) : Prop :=
  span.spanId.getD [] ≠ [] ∧ span.traceId.getD [] ≠ [] ∧ span.endTimeUnixNano.getD 0 ≠ 0

/-- A value that is a text as it is. -/
def plainText : Option ScriptValue → Option CodeUnits
  | some (.string text) => some text
  | _ => none

/-- The texts of a span that are written as they are or into `jsonb`. -/
def spanTexts (span : OtlpSpan) : List CodeUnits :=
  let attributes := spanAttributes round span
  span.name.toList ++ (span.status.bind OtlpStatus.message).toList ++ attributes.texts ++
    (plainText (attributes.get inputAttribute)).toList ++
    (plainText (attributes.get outputAttribute)).toList ++
    span.events.flatMap fun event =>
      event.name.toList ++ (flattenAttributes round event.attributes).texts

/-- No U+0000 in what is written of a span, and times within 63 bits. -/
@[mk_iff]
structure Clean (span : OtlpSpan) : Prop where
  texts : ∀ text ∈ spanTexts round span, (0 : CodeUnit) ∉ text
  startTime : span.startTimeUnixNano.getD 0 < 2 ^ 63
  endTime : span.endTimeUnixNano.getD 0 < 2 ^ 63

/-- The ingest does not raise, and the table has of each usable span what first came under its
id. -/
structure StoresAll (table : List SpanRow) (request : ExportRequest) (ingested : Ingested) :
    Prop where
  returns : ingested.outcome.isSome
  stored : ∀ span ∈ spansOf request, Usable span → ∃ row ∈ mapSpan round numberText span,
    ingested.table.find? (·.spanId = row.spanId) =
      (table ++ (spansOf request).filterMap (mapSpan round numberText)).find?
        (·.spanId = row.spanId)

end Ingest

/-! ### The chunks -/

variable {table rows : List SpanRow}

theorem find?_insertRow (table : List SpanRow) (row : SpanRow) (rows : List SpanRow)
    (id : CodeUnits) :
    (insertRow table row ++ rows).find? (·.spanId = id) =
      (table ++ row :: rows).find? (·.spanId = id) := by
  unfold insertRow
  split
  case isTrue hthere =>
    rw [List.find?_append, List.find?_append, List.find?_cons]
    by_cases hid : row.spanId = id
    · obtain ⟨stored, hmem, hstored⟩ := List.any_eq_true.mp hthere
      have hfound : (table.find? (·.spanId = id)).isSome := by
        rw [List.find?_isSome]
        exact ⟨stored, hmem, by simpa [hid] using hstored⟩
      rw [Option.or_of_isSome hfound, Option.or_of_isSome hfound]
    · simp [hid]
  case isFalse => rw [List.append_assoc, List.singleton_append]

theorem find?_foldl_insertRow (id : CodeUnits) :
    (rows.foldl insertRow table).find? (·.spanId = id) =
      (table ++ rows).find? (·.spanId = id) := by
  induction rows generalizing table with
  | nil => rw [List.foldl_nil, List.append_nil]
  | cons row rows ih => rw [List.foldl_cons, ih, find?_insertRow]

/-- All chunks can be inserted if and only if the table can hold every row of them. -/
theorem insertChunks_snd_iff {chunks : List (List SpanRow)} :
    (insertChunks table chunks).2 = true ↔ ∀ row ∈ chunks.flatten, Storable row := by
  induction chunks generalizing table with
  | nil => simp [insertChunks]
  | cons chunk chunks ih =>
      rw [insertChunks, insertChunk, List.flatten_cons, List.forall_mem_append]
      split_ifs with hchunk
      · rw [ih]
        exact (and_iff_right hchunk).symm
      · simp [hchunk]

theorem insertChunks_fst {chunks : List (List SpanRow)}
    (hrows : ∀ row ∈ chunks.flatten, Storable row) :
    (insertChunks table chunks).1 = chunks.flatten.foldl insertRow table := by
  induction chunks generalizing table with
  | nil => rfl
  | cons chunk chunks ih =>
      rw [List.flatten_cons, List.forall_mem_append] at hrows
      rw [insertChunks, insertChunk, if_pos hrows.1, List.flatten_cons, List.foldl_append]
      exact ih hrows.2

theorem flatten_chunks (rows : List SpanRow) :
    (Rollups.slices insertChunkSize rows).flatten = rows :=
  Rollups.flatten_slices (by decide) rows

/-! ### The row of a span -/

section Row

variable {round : ℚ → FloatValue} {numberText : ℚ → CodeUnits} {span : OtlpSpan} {row : SpanRow}

theorem hex_eq_nil_iff {bytes : Option Bytes} : hex bytes = [] ↔ bytes.getD [] = [] := by
  cases hbytes : bytes.getD [] with
  | nil => simp [hex, hbytes]
  | cons byte rest => simp [hex, hbytes]

theorem zero_notMem_hex (bytes : Option Bytes) : (0 : CodeUnit) ∉ hex bytes := by
  rw [hex, List.mem_flatMap]
  rintro ⟨byte, -, hmem⟩
  have hbyte := byte.toNat_lt
  have hhigh : hexDigit (byte.toNat / 16) ≠ 0 := hexDigit_ne_zero (by omega)
  have hlow : hexDigit (byte.toNat % 16) ≠ 0 := hexDigit_ne_zero (by omega)
  simp only [List.mem_cons, List.not_mem_nil, or_false] at hmem
  obtain hmem | hmem := hmem
  · exact hhigh hmem.symm
  · exact hlow hmem.symm

theorem nameOf_mem {names : List CodeUnits} (hnames : names ≠ []) (number : Option ℤ) :
    nameOf names number ∈ names := by
  have hfirst : names.headD [] ∈ names := by
    cases names with
    | nil => exact absurd rfl hnames
    | cons name rest => exact List.mem_cons_self
  unfold nameOf
  cases number.getD 0 with
  | negSucc index => exact hfirst
  | ofNat index =>
      change names.getD index (names.headD []) ∈ names
      by_cases hindex : index < names.length
      · rw [List.getD_eq_getElem _ _ hindex]
        exact List.getElem_mem hindex
      · rw [List.getD_eq_default _ _ (by omega)]
        exact hfirst

theorem zero_notMem_spanKindNames : ∀ name ∈ spanKindNames, (0 : CodeUnit) ∉ name := by
  rw [spanKindNames, List.forall_mem_map]
  simp only [List.mem_cons, List.not_mem_nil, or_false, forall_eq_or_imp, forall_eq]
  refine ⟨?_, ?_, ?_, ?_, ?_, ?_⟩ <;> exact zero_notMem_ascii (by simp)

theorem zero_notMem_statusCodeNames : ∀ name ∈ statusCodeNames, (0 : CodeUnit) ∉ name := by
  rw [statusCodeNames, List.forall_mem_map]
  simp only [List.mem_cons, List.not_mem_nil, or_false, forall_eq_or_imp, forall_eq]
  refine ⟨?_, ?_, ?_⟩ <;> exact zero_notMem_ascii (by simp)

/-- Only a payload written as it is can have U+0000. -/
theorem zero_notMem_payloadColumn (hnumbers : ∀ value, (0 : CodeUnit) ∉ numberText value)
    (value : Option ScriptValue) :
    (∀ text ∈ payloadColumn numberText value, (0 : CodeUnit) ∉ text) ↔
      ∀ text ∈ plainText value, (0 : CodeUnit) ∉ text := by
  have hjson (value : ScriptValue) : ∀ text ∈ some (stringify numberText (toJson value)),
      (0 : CodeUnit) ∉ text := by
    rintro text ⟨⟩
    exact zero_notMem_stringify hnumbers (toJson value)
  cases value with
  | none => rfl
  | some value =>
      cases value with
      | null => rfl
      | string text => rfl
      | bool value => exact iff_of_true (hjson _) (by simp [plainText])
      | number value => exact iff_of_true (hjson _) (by simp [plainText])
      | array items => exact iff_of_true (hjson _) (by simp [plainText])
      | object own prototype => exact iff_of_true (hjson _) (by simp [plainText])

theorem isSome_mapSpan_iff : (mapSpan round numberText span).isSome ↔ Usable span := by
  unfold mapSpan Usable
  split_ifs with hids
  · simp only [hex_eq_nil_iff] at hids
    simp only [Option.isSome_none, Bool.false_eq_true, false_iff]
    rintro ⟨hspan, htrace, -⟩
    exact hids.elim hspan htrace
  · simp only [hex_eq_nil_iff, not_or] at hids
    cases hend : span.endTimeUnixNano with
    | none => simp
    | some endTime =>
        cases endTime with
        | zero => simp
        | succ endTime => simp [hids]

theorem zero_notMem_getD (text : Option CodeUnits) :
    (0 : CodeUnit) ∉ text.getD [] ↔ ∀ other ∈ text.toList, (0 : CodeUnit) ∉ other := by
  cases text <;> simp

theorem zero_notMem_mapEvent (event : OtlpEvent) :
    (∀ text ∈ (mapEvent round event).texts, (0 : CodeUnit) ∉ text) ↔
      ∀ text ∈ event.name.toList ++ (flattenAttributes round event.attributes).texts,
        (0 : CodeUnit) ∉ text := by
  rw [EventRow.texts, List.forall_mem_cons, List.forall_mem_append]
  exact and_congr_left' (zero_notMem_getD event.name)

theorem zero_notMem_events (events : List OtlpEvent) :
    (∀ text ∈ (events.map (mapEvent round)).flatMap EventRow.texts, (0 : CodeUnit) ∉ text) ↔
      ∀ text ∈ events.flatMap fun event =>
        event.name.toList ++ (flattenAttributes round event.attributes).texts,
        (0 : CodeUnit) ∉ text := by
  induction events with
  | nil => rfl
  | cons event events ih =>
      rw [List.map_cons, List.flatMap_cons, List.flatMap_cons, List.forall_mem_append,
        List.forall_mem_append, ih, zero_notMem_mapEvent]

/-- The table can hold the row of a clean span, and of no other. -/
theorem storable_iff_clean (hnumbers : ∀ value, (0 : CodeUnit) ∉ numberText value)
    (hrow : mapSpan round numberText span = some row) : Storable row ↔ Clean round span := by
  unfold mapSpan at hrow
  split_ifs at hrow
  split at hrow
  · cases hrow
  · cases hrow
  case h_3 endTime hne hend =>
    cases hrow
    have hinput := zero_notMem_payloadColumn hnumbers
      ((spanAttributes round span).get inputAttribute)
    have houtput := zero_notMem_payloadColumn hnumbers
      ((spanAttributes round span).get outputAttribute)
    have hkind := zero_notMem_spanKindNames _ (nameOf_mem (by simp [spanKindNames]) span.kind)
    have hcode := zero_notMem_statusCodeNames _
      (nameOf_mem (by simp [statusCodeNames]) (span.status.bind OtlpStatus.code))
    have hparent : ∀ text ∈ (if hex span.parentSpanId ≠ [] ∧
        hex span.parentSpanId ≠ absentSpanId then some (hex span.parentSpanId) else none),
        (0 : CodeUnit) ∉ text := by
      intro text htext
      split_ifs at htext
      · cases htext
        exact zero_notMem_hex _
      · cases htext
    rw [Storable, clean_iff, hend]
    refine and_congr ?_ Iff.rfl
    simp only [SpanRow.texts, spanTexts, List.forall_mem_append, List.forall_mem_cons,
      Option.mem_toList, zero_notMem_hex, not_false_eq_true, hkind, hcode, zero_notMem_events,
      zero_notMem_getD, true_and]
    tauto

/-! ### The whole export -/

variable {request : ExportRequest}

theorem forall_storable_iff (hnumbers : ∀ value, (0 : CodeUnit) ∉ numberText value)
    (spans : List OtlpSpan) :
    (∀ row ∈ spans.filterMap (mapSpan round numberText), Storable row) ↔
      ∀ span ∈ spans, Usable span → Clean round span := by
  constructor
  · intro hrows span hspan husable
    obtain ⟨row, hrow⟩ := Option.isSome_iff_exists.mp
      ((@isSome_mapSpan_iff round numberText span).mpr husable)
    exact (storable_iff_clean hnumbers hrow).mp
      (hrows row (List.mem_filterMap.mpr ⟨span, hspan, hrow⟩))
  · intro hclean row hmem
    obtain ⟨span, hspan, hrow⟩ := List.mem_filterMap.mp hmem
    have husable : Usable span := isSome_mapSpan_iff.mp (Option.isSome_iff_exists.mpr ⟨row, hrow⟩)
    exact (storable_iff_clean hnumbers hrow).mpr (hclean span hspan husable)

/-- Whether an export is refused depends on its spans alone, so it is refused each time it is
sent. -/
theorem isSome_outcome_iff (hnumbers : ∀ value, (0 : CodeUnit) ∉ numberText value) :
    (ingestTraceExport round numberText table request).outcome.isSome ↔
      ∀ span ∈ spansOf request, Usable span → Clean round span := by
  rw [← forall_storable_iff hnumbers,
    ← flatten_chunks ((spansOf request).filterMap (mapSpan round numberText)),
    ← @insertChunks_snd_iff table]
  unfold ingestTraceExport insertSpans
  dsimp only
  split_ifs with hinserted
  · exact iff_of_true rfl hinserted
  · exact iff_of_false (by simp) hinserted

theorem table_ingestTraceExport
    (hrows : ∀ row ∈ (spansOf request).filterMap (mapSpan round numberText), Storable row) :
    (ingestTraceExport round numberText table request).table =
      ((spansOf request).filterMap (mapSpan round numberText)).foldl insertRow table := by
  rw [← flatten_chunks ((spansOf request).filterMap (mapSpan round numberText))] at hrows
  change (insertChunks table _).1 = _
  rw [insertChunks_fst hrows, flatten_chunks]

/-- An export is stored exactly when each of its usable spans is clean. -/
theorem storesAll_iff (hnumbers : ∀ value, (0 : CodeUnit) ∉ numberText value) :
    StoresAll round numberText table request
        (ingestTraceExport round numberText table request) ↔
      ∀ span ∈ spansOf request, Usable span → Clean round span := by
  constructor
  · intro hstores
    exact (isSome_outcome_iff hnumbers).mp hstores.returns
  · intro hclean
    have hrows := (forall_storable_iff hnumbers (spansOf request)).mpr hclean
    refine ⟨(isSome_outcome_iff hnumbers).mpr hclean, fun span _ husable => ?_⟩
    obtain ⟨row, hrow⟩ := Option.isSome_iff_exists.mp (isSome_mapSpan_iff.mpr husable)
    refine ⟨row, hrow, ?_⟩
    rw [table_ingestTraceExport hrows, find?_foldl_insertRow]

end Row

/-! ### A character -/

/-- A span of 2026. -/
def spanNamed (id : UInt8) (name : CodeUnits) : OtlpSpan where
  traceId := some [1]
  spanId := some [id]
  parentSpanId := none
  name := some name
  kind := some 1
  startTimeUnixNano := some 1790000000000000000
  endTimeUnixNano := some 1790000001000000000
  attributes := []
  events := []
  status := none

/-- The text of the number 0, where an export has no numbers. -/
def noNumbers (_ : ℚ) : CodeUnits :=
  [48]

theorem storesAll_named :
    StoresAll .finite noNumbers [] [[[spanNamed 1 [112]]]]
      (ingestTraceExport .finite noNumbers [] [[[spanNamed 1 [112]]]]) := by
  refine (storesAll_iff fun _ => by simp [noNumbers]).mpr ?_
  intro span hspan _
  rw [spansOf, List.flatten_singleton, List.flatten_singleton, List.mem_singleton] at hspan
  subst hspan
  have htexts : spanTexts .finite (spanNamed 1 [112]) = [[112]] := rfl
  refine ⟨?_, by decide, by decide⟩
  simp [htexts]

/-- One U+0000 in a name, and the other span of the export is not stored either. -/
theorem not_storesAll_nul :
    ¬ StoresAll .finite noNumbers [] [[[spanNamed 1 [0], spanNamed 2 [112]]]]
      (ingestTraceExport .finite noNumbers [] [[[spanNamed 1 [0], spanNamed 2 [112]]]]) := by
  intro hstores
  have hrefused : (ingestTraceExport .finite noNumbers []
      [[[spanNamed 1 [0], spanNamed 2 [112]]]]).outcome.isSome = false := by decide +kernel
  rw [hstores.returns] at hrefused
  cases hrefused

end CanyonOS.Telemetry.Ingest
