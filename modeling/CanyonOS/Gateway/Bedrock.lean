import Mathlib
import CanyonOS.Lib.CodePoints
import CanyonOS.Lib.EventStream

/-!
# The Bedrock stream

The gateway gets the events of a Bedrock stream from its own client as dictionaries, and encodes
them again in the event-stream format for the agent's client.
-/

namespace CanyonOS.Gateway.Bedrock

open CodePoints EventStream

/-! ### JSON -/

/-- A JSON value, in which bytes may stand where the service's shape has a blob. -/
inductive Value where
  | null
  | bool (value : Bool)
  | int (value : Int)
  /-- the shortest text that reads back as the number -/
  | float (repr : List Char)
  | str (value : CodePoints)
  | bytes (value : Bytes)
  | list (items : List Value)
  | dict (items : List (CodePoints × Value))

/-- What encoding a frame raises; `str` of it depends on the interpreter. -/
inductive Raised where
  /-- of `json.dumps` at a value it has no text for -/
  | typeError
  /-- of `str.encode` at a surrogate by itself -/
  | unicodeEncodeError
  /-- of `bytearray.append` -/
  | valueError
  /-- of `struct.pack` at a number too large for its field -/
  | structError
deriving DecidableEq

def Raised.typeName : Raised → CodePoints
  | .typeError => ofString "TypeError"
  | .unicodeEncodeError => ofString "UnicodeEncodeError"
  | .valueError => ofString "ValueError"
  | .structError => ofString "error"

/-- `\uXXXX` -/
def unicodeEscape (unit : ℕ) : List Char :=
  "\\u".toList ++ (Nat.toDigits 16 unit).leftpad 4 '0'

/-- A code point of a JSON text that is all ASCII. -/
def escape (codePoint : CodePoint) : List Char :=
  if codePoint = 0x22 then "\\\"".toList
  else if codePoint = 0x5C then "\\\\".toList
  else if codePoint = 0x08 then "\\b".toList
  else if codePoint = 0x09 then "\\t".toList
  else if codePoint = 0x0A then "\\n".toList
  else if codePoint = 0x0C then "\\f".toList
  else if codePoint = 0x0D then "\\r".toList
  else if 0x20 ≤ codePoint ∧ codePoint ≤ 0x7E then [Char.ofNat codePoint]
  else if codePoint < 0x10000 then unicodeEscape codePoint
  else
    -- a surrogate pair
    unicodeEscape (0xD800 + (codePoint - 0x10000) / 0x400) ++
      unicodeEscape (0xDC00 + (codePoint - 0x10000) % 0x400)

def quote (string : CodePoints) : List Char :=
  "\"".toList ++ string.flatMap escape ++ "\"".toList

def base64Alphabet : List Char :=
  "ABCDEFGHIJKLMNOPQRSTUVWXYZabcdefghijklmnopqrstuvwxyz0123456789+/".toList

def base64Char (digit : ℕ) : Char :=
  base64Alphabet.getD digit '='

def b64encode : Bytes → List Char
  | first :: second :: third :: rest =>
      [base64Char (first.toNat / 4), base64Char (first.toNat % 4 * 16 + second.toNat / 16),
        base64Char (second.toNat % 16 * 4 + third.toNat / 64), base64Char (third.toNat % 64)] ++
        b64encode rest
  | [first, second] =>
      [base64Char (first.toNat / 4), base64Char (first.toNat % 4 * 16 + second.toNat / 16),
        base64Char (second.toNat % 16 * 4), '=']
  | [first] => [base64Char (first.toNat / 4), base64Char (first.toNat % 4 * 16), '=', '=']
  | [] => []

mutual

/-- The JSON text of a value, in which every blob is the string of its base64. -/
def render : Value → List Char
  | .null => "null".toList
  | .bool true => "true".toList
  | .bool false => "false".toList
  | .int value => (toString value).toList
  | .float repr => repr
  | .str value => quote value
  | .bytes value => "\"".toList ++ b64encode value ++ "\"".toList
  | .list items => "[".toList ++ renderItems items ++ "]".toList
  | .dict items => "\x7b".toList ++ renderEntries items ++ "\x7d".toList

def renderItems : List Value → List Char
  | [] => []
  | [item] => render item
  | item :: items => render item ++ ", ".toList ++ renderItems items

def renderEntries : List (CodePoints × Value) → List Char
  | [] => []
  | [(key, value)] => quote key ++ ": ".toList ++ render value
  | (key, value) :: entries =>
      quote key ++ ": ".toList ++ render value ++ ", ".toList ++ renderEntries entries

end

mutual

def hasBlob : Value → Bool
  | .bytes _ => true
  | .list items => itemsHaveBlob items
  | .dict items => entriesHaveBlob items
  | .null | .bool _ | .int _ | .float _ | .str _ => false

def itemsHaveBlob : List Value → Bool
  | [] => false
  | item :: items => hasBlob item || itemsHaveBlob items

def entriesHaveBlob : List (CodePoints × Value) → Bool
  | [] => false
  | (_, value) :: entries => hasBlob value || entriesHaveBlob entries

end

/-- `json.dumps`, which has no text for bytes anywhere. -/
def dumps (value : Value) : Except Raised (List Char) :=
  if hasBlob value then .error .typeError else .ok (render value)

/-- A dictionary's `get`. -/
def get (items : List (CodePoints × Value)) (key : CodePoints) : Option Value :=
  (items.find? fun entry => entry.1 = key).map Prod.snd

/-! ### Frames -/

def encodeUtf8 (string : CodePoints) : Except Raised Bytes :=
  match encodeUtf8? string with
  | some bytes => .ok bytes
  | none => .error .unicodeEncodeError

def encodeEventHeaders : List (CodePoints × CodePoints) → Except Raised Bytes
  | [] => .ok []
  | (name, value) :: headers => do
      let nameBytes ← encodeUtf8 name
      let valueBytes ← encodeUtf8 value
      if 2 ^ 8 ≤ nameBytes.length then .error .valueError
      else if 2 ^ 16 ≤ valueBytes.length then .error .structError
      else
        let rest ← encodeEventHeaders headers
        .ok (be8 nameBytes.length ++ nameBytes ++ [headerTypeString] ++ be16 valueBytes.length ++
          valueBytes ++ rest)

def encodeEvent (headers : List (CodePoints × CodePoints)) (payload : Bytes) :
    Except Raised Bytes := do
  let headerBytes ← encodeEventHeaders headers
  let totalLength := 8 + 4 + headerBytes.length + payload.length + 4
  if 2 ^ 32 ≤ totalLength then .error .structError
  else
    let prelude := be32 totalLength ++ be32 headerBytes.length
    let preludeCrc := be32 (crc32 prelude).toNat
    let message := prelude ++ preludeCrc ++ headerBytes ++ payload
    let messageCrc := be32 (crc32 message).toNat
    .ok (message ++ messageCrc)

def jsonifyBlob : Value → Value
  | .bytes value => .str ((b64encode value).map ofChar)
  | value => value

/-- One level only: a blob in a value of the body stays. -/
def jsonifyBlobs (body : List (CodePoints × Value)) : List (CodePoints × Value) :=
  body.map fun entry => (entry.1, jsonifyBlob entry.2)

/-- An event of the stream: its one member. -/
structure Event where
  eventType : CodePoints
  body : List (CodePoints × Value)

def textBytes (text : List Char) : Bytes :=
  (String.ofList text).toUTF8.data.toList

def eventHeaders (eventType : CodePoints) : List (CodePoints × CodePoints) :=
  [(ofString ":event-type", eventType), (ofString ":content-type", ofString "application/json"),
    (ofString ":message-type", ofString "event")]

def eventFrame (event : Event) : Except Raised Bytes := do
  let payload ← dumps (.dict (jsonifyBlobs event.body))
  encodeEvent (eventHeaders event.eventType) (textBytes payload)

def exceptionHeaders (errorCode message : CodePoints) : List (CodePoints × CodePoints) :=
  [(ofString ":error-code", errorCode), (ofString ":error-message", message),
    (ofString ":content-type", ofString "application/json"),
    (ofString ":message-type", ofString "exception")]

def exceptionFrame (errorCode message : CodePoints) : Except Raised Bytes := do
  let payload ← dumps (.dict [(ofString "message", .str message)])
  encodeEvent (exceptionHeaders errorCode message) (textBytes payload)

/-! ### The stream -/

/-- How the client's stream fails. -/
inductive Failure where
  /-- with the `Error` of its response, and its own text -/
  | clientError (code message : Option CodePoints) (text : CodePoints)
  | other (typeName text : CodePoints)

def Failure.code : Failure → CodePoints
  | .clientError code _ _ => code.getD (ofString "InternalServerException")
  | .other typeName _ => typeName

def Failure.message : Failure → CodePoints
  | .clientError _ message text => message.getD text
  | .other _ text => text

structure GatewayResponse where
  streamUsage : Option Value := none
  streamError : Bool := false

/-- What the generator has yielded, and what it raised at its end. -/
structure Stream where
  frames : List Bytes
  response : GatewayResponse
  raised : Option Raised := none

def failStream (response : GatewayResponse) (code message : CodePoints) : Stream :=
  match exceptionFrame code message with
  | .ok frame => { frames := [frame], response := { response with streamError := true } }
  | .error raised =>
      { frames := [], response := { response with streamError := true }, raised := some raised }

section Text

-- `str` of what encoding raises
variable (text : Raised → CodePoints)

def encodeEventStream (response : GatewayResponse) (failure : Option Failure) :
    List Event → Stream
  | [] =>
      match failure with
      | some failure => failStream response failure.code failure.message
      | none => { frames := [], response }
  | event :: events =>
      let response : GatewayResponse :=
        if event.eventType = ofString "metadata" then
          { response with streamUsage := get event.body (ofString "usage") }
        else response
      match eventFrame event with
      | .ok frame =>
          let rest := encodeEventStream response failure events
          { rest with frames := frame :: rest.frames }
      | .error raised => failStream response raised.typeName (text raised)

end Text

/-! ### What the agent's client reads -/

structure Frame where
  headers : List (CodePoints × CodePoints)
  payload : Bytes
deriving DecidableEq

def headerTexts (header : Header) : Option (CodePoints × CodePoints) := do
  let name ← decodeUtf8? header.name
  let value ← decodeUtf8? header.value
  some (name, value)

def decodeFrame (message : Message) : Option Frame :=
  (message.headers.mapM headerTexts).map fun headers => { headers, payload := message.payload }

def decodeStream (bytes : Bytes) : Option (List Frame) := do
  let messages ← decodeMessages crc32 bytes
  messages.mapM decodeFrame

def Event.frame (event : Event) : Frame where
  headers := eventHeaders event.eventType
  payload := textBytes (render (.dict event.body))

def errorFrame (code message : CodePoints) : Frame where
  headers := exceptionHeaders code message
  payload := textBytes (render (.dict [(ofString "message", .str message)]))

/-- Every event, and one exception frame if the upstream failed. -/
def expected (events : List Event) (failure : Option Failure) : List Frame :=
  events.map Event.frame ++
    failure.toList.map fun failure => errorFrame failure.code failure.message

/-- No bytes below the first level of the event's body. -/
def Event.BlobsOnTop (event : Event) : Prop :=
  ∀ entry ∈ event.body, hasBlob entry.2 → ∃ value, entry.2 = .bytes value

def header? (header : CodePoints × CodePoints) : Option Header := do
  let name ← encodeUtf8? header.1
  let value ← encodeUtf8? header.2
  some { name, value }

/-- The message the frame is on the wire; none when a text of its headers has no UTF-8. -/
def Frame.message? (frame : Frame) : Option Message :=
  (frame.headers.mapM header?).map fun headers => { headers, payload := frame.payload }

/-- The frame's texts have UTF-8, and its lengths have room in their fields. -/
def Frame.Fits (frame : Frame) : Prop :=
  ∃ message, frame.message? = some message ∧ message.Fits

/-- The bytes are the frame's. -/
def Frame.Encodes (frame : Frame) (bytes : Bytes) : Prop :=
  ∃ message, frame.message? = some message ∧ message.Fits ∧ bytes = encodeMessage crc32 message

/-! ### One frame -/

theorem encodeUtf8_of_some {string : CodePoints} {bytes : Bytes}
    (hencode : encodeUtf8? string = some bytes) : encodeUtf8 string = .ok bytes := by
  rw [encodeUtf8, hencode]

theorem encodeUtf8_of_none {string : CodePoints} (hencode : encodeUtf8? string = none) :
    encodeUtf8 string = .error .unicodeEncodeError := by
  rw [encodeUtf8, hencode]

theorem header?_eq_some {header : CodePoints × CodePoints} {encoded : Header} :
    header? header = some encoded ↔
      encodeUtf8? header.1 = some encoded.name ∧ encodeUtf8? header.2 = some encoded.value := by
  unfold header?
  simp only [Option.bind_eq_bind, Option.bind_eq_some_iff, Option.some.injEq]
  constructor
  · rintro ⟨name, hname, value, hvalue, rfl⟩
    exact ⟨hname, hvalue⟩
  · rintro ⟨hname, hvalue⟩
    exact ⟨encoded.name, hname, encoded.value, hvalue, rfl⟩

/-- One more header: it is encoded when it has room, before the rest. -/
theorem encodeEventHeaders_cons {header : CodePoints × CodePoints} {encoded : Header}
    (hencoded : header? header = some encoded) (headers : List (CodePoints × CodePoints)) :
    (¬ encoded.Fits → ∃ raised, encodeEventHeaders (header :: headers) = .error raised) ∧
      (encoded.Fits → encodeEventHeaders (header :: headers) =
        (encodeEventHeaders headers).map (encodeHeader encoded ++ ·)) := by
  obtain ⟨name, value⟩ := header
  obtain ⟨hname, hvalue⟩ := header?_eq_some.mp hencoded
  have hcons : encodeEventHeaders ((name, value) :: headers) =
      if 2 ^ 8 ≤ encoded.name.length then .error .valueError
      else if 2 ^ 16 ≤ encoded.value.length then .error .structError
      else (encodeEventHeaders headers).map (encodeHeader encoded ++ ·) := by
    rw [encodeEventHeaders, encodeUtf8_of_some hname, encodeUtf8_of_some hvalue]
    rfl
  rw [hcons]
  constructor
  · intro hfits
    by_cases hlong : 2 ^ 8 ≤ encoded.name.length
    · exact ⟨_, if_pos hlong⟩
    · by_cases hvalueLong : 2 ^ 16 ≤ encoded.value.length
      · exact ⟨_, by rw [if_neg hlong, if_pos hvalueLong]⟩
      · exact absurd ⟨Nat.lt_of_not_le hlong, Nat.lt_of_not_le hvalueLong⟩ hfits
  · intro hfits
    rw [if_neg (Nat.not_le_of_lt hfits.name), if_neg (Nat.not_le_of_lt hfits.value)]

/-- The headers encode to the bytes of headers that fit. -/
theorem encodeEventHeaders_eq_ok {headers : List (CodePoints × CodePoints)} {bytes : Bytes} :
    encodeEventHeaders headers = .ok bytes ↔
      ∃ encoded, headers.mapM header? = some encoded ∧ (∀ header ∈ encoded, header.Fits) ∧
        bytes = encodeHeaders encoded := by
  induction headers generalizing bytes with
  | nil => simp [encodeEventHeaders, encodeHeaders, eq_comm]
  | cons header headers ih =>
      rw [List.mapM_cons]
      cases hencoded : header? header with
      | none =>
          have hraised : ∃ raised, encodeEventHeaders (header :: headers) = .error raised := by
            obtain ⟨name, value⟩ := header
            cases hname : encodeUtf8? name with
            | none => exact ⟨_, by rw [encodeEventHeaders, encodeUtf8_of_none hname]; rfl⟩
            | some nameBytes =>
                cases hvalue : encodeUtf8? value with
                | none =>
                    exact ⟨_, by rw [encodeEventHeaders, encodeUtf8_of_some hname,
                      encodeUtf8_of_none hvalue]; rfl⟩
                | some valueBytes =>
                    have hsome : header? (name, value) =
                        some { name := nameBytes, value := valueBytes } :=
                      header?_eq_some.mpr ⟨hname, hvalue⟩
                    rw [hencoded] at hsome
                    cases hsome
          obtain ⟨raised, hraised⟩ := hraised
          simp [hraised]
      | some encoded =>
          obtain ⟨hlong, hshort⟩ := encodeEventHeaders_cons hencoded headers
          simp only [Option.bind_eq_bind, Option.bind_some]
          by_cases hfits : encoded.Fits
          · rw [hshort hfits]
            constructor
            · intro hok
              cases hrest : encodeEventHeaders headers with
              | error raised =>
                  rw [hrest] at hok
                  cases hok
              | ok rest =>
                  rw [hrest] at hok
                  cases hok
                  obtain ⟨others, hothers, hall, rfl⟩ := ih.mp hrest
                  refine ⟨encoded :: others, by rw [hothers]; rfl, ?_, rfl⟩
                  exact List.forall_mem_cons.mpr ⟨hfits, hall⟩
            · rintro ⟨all, hall, hfit, rfl⟩
              obtain ⟨others, hothers, heq⟩ := Option.bind_eq_some_iff.mp hall
              cases heq
              have hrest := ih.mpr ⟨others, hothers, (List.forall_mem_cons.mp hfit).2, rfl⟩
              rw [hrest]
              rfl
          · obtain ⟨raised, hraised⟩ := hlong hfits
            rw [hraised]
            constructor
            · intro hok
              cases hok
            · rintro ⟨all, hall, hfit, -⟩
              obtain ⟨others, -, heq⟩ := Option.bind_eq_some_iff.mp hall
              cases heq
              exact absurd (List.forall_mem_cons.mp hfit).1 hfits

/-- A frame is encoded just when it fits, to the bytes of its message. -/
theorem encodeEvent_eq_ok {frame : Frame} {bytes : Bytes} :
    encodeEvent frame.headers frame.payload = .ok bytes ↔ frame.Encodes bytes := by
  unfold encodeEvent Frame.Encodes Frame.message?
  cases hheaders : encodeEventHeaders frame.headers with
  | error raised =>
      constructor
      · intro hok
        cases hok
      · rintro ⟨message, hmessage, hfits, -⟩
        obtain ⟨encoded, hencoded, rfl⟩ := Option.map_eq_some_iff.mp hmessage
        have hok := encodeEventHeaders_eq_ok.mpr ⟨encoded, hencoded, hfits.headers, rfl⟩
        rw [hheaders] at hok
        cases hok
  | ok headerBytes =>
      obtain ⟨encoded, hencoded, hall, rfl⟩ := encodeEventHeaders_eq_ok.mp hheaders
      rw [hencoded]
      have htotal : 8 + 4 + (encodeHeaders encoded).length + frame.payload.length + 4 =
          Message.totalLength { headers := encoded, payload := frame.payload } := rfl
      change (if 2 ^ 32 ≤ 8 + 4 + (encodeHeaders encoded).length + frame.payload.length + 4
        then Except.error Raised.structError
        else .ok (encodeMessage crc32 { headers := encoded, payload := frame.payload })) =
          .ok bytes ↔ _
      rw [htotal]
      by_cases hlong : 2 ^ 32 ≤ Message.totalLength { headers := encoded, payload := frame.payload }
      · rw [if_pos hlong]
        constructor
        · intro hok
          cases hok
        · rintro ⟨message, hmessage, hfits, -⟩
          cases hmessage
          exact absurd hfits.total (Nat.not_lt_of_le hlong)
      · rw [if_neg hlong]
        constructor
        · intro hok
          cases hok
          exact ⟨_, rfl, ⟨hall, Nat.lt_of_not_le hlong⟩, rfl⟩
        · rintro ⟨message, hmessage, -, rfl⟩
          cases hmessage
          rfl

theorem mapM_headerTexts {headers : List (CodePoints × CodePoints)} {encoded : List Header}
    (hencoded : headers.mapM header? = some encoded) :
    encoded.mapM headerTexts = some headers := by
  induction headers generalizing encoded with
  | nil =>
      cases hencoded
      rfl
  | cons header headers ih =>
      rw [List.mapM_cons] at hencoded
      simp only [Option.bind_eq_bind, Option.bind_eq_some_iff] at hencoded
      obtain ⟨first, hfirst, rest, hrest, heq⟩ := hencoded
      cases heq
      obtain ⟨hname, hvalue⟩ := header?_eq_some.mp hfirst
      have htexts : headerTexts first = some header := by
        rw [headerTexts, decodeUtf8?_of_encodeUtf8? hname, decodeUtf8?_of_encodeUtf8? hvalue]
        rfl
      rw [List.mapM_cons, htexts, ih hrest]
      rfl

theorem decodeFrame_of_message? {frame : Frame} {message : Message}
    (hmessage : frame.message? = some message) : decodeFrame message = some frame := by
  obtain ⟨encoded, hencoded, rfl⟩ := Option.map_eq_some_iff.mp hmessage
  rw [decodeFrame, mapM_headerTexts hencoded]
  rfl

/-- The frames' bytes decode to the frames. -/
theorem decodeStream_of_encodes {frames : List Frame} {chunks : List Bytes}
    (hencodes : List.Forall₂ Frame.Encodes frames chunks) :
    decodeStream chunks.flatten = some frames := by
  obtain ⟨messages, hmessages, hfits, hchunks⟩ : ∃ messages : List Message,
      messages.mapM decodeFrame = some frames ∧ (∀ message ∈ messages, message.Fits) ∧
        chunks.flatten = messages.flatMap (encodeMessage crc32) := by
    induction hencodes with
    | nil => exact ⟨[], rfl, fun _ hmem => (by cases hmem), rfl⟩
    | cons hhead _ ih =>
        obtain ⟨message, hmessage, hfit, rfl⟩ := hhead
        obtain ⟨messages, hmessages, hfits, hchunks⟩ := ih
        refine ⟨message :: messages, ?_, List.forall_mem_cons.mpr ⟨hfit, hfits⟩, ?_⟩
        · rw [List.mapM_cons, decodeFrame_of_message? hmessage, hmessages]
          rfl
        · rw [List.flatten_cons, List.flatMap_cons, hchunks]
  rw [decodeStream, hchunks, decodeMessages_flatMap crc32 hfits]
  exact hmessages

/-! ### Blobs -/

theorem base64Char_mem (digit : ℕ) : base64Char digit ∈ '=' :: base64Alphabet := by
  unfold base64Char
  by_cases hdigit : digit < base64Alphabet.length
  · rw [List.getD_eq_getElem _ _ hdigit]
    exact List.mem_cons_of_mem _ (List.getElem_mem hdigit)
  · rw [List.getD_eq_default _ _ (Nat.le_of_not_lt hdigit)]
    exact List.mem_cons_self

theorem mem_b64encode {bytes : Bytes} :
    ∀ char ∈ b64encode bytes, char ∈ '=' :: base64Alphabet := by
  have hequals : '=' ∈ '=' :: base64Alphabet := List.mem_cons_self
  fun_induction b64encode bytes with
  | case1 first second third rest ih =>
      intro char hmem
      simp only [List.cons_append, List.nil_append, List.mem_cons] at hmem
      rcases hmem with rfl | rfl | rfl | rfl | hmem
      · exact base64Char_mem _
      · exact base64Char_mem _
      · exact base64Char_mem _
      · exact base64Char_mem _
      · exact ih char hmem
  | case2 first second =>
      intro char hmem
      simp only [List.mem_cons, List.not_mem_nil, or_false] at hmem
      rcases hmem with rfl | rfl | rfl | rfl
      · exact base64Char_mem _
      · exact base64Char_mem _
      · exact base64Char_mem _
      · exact hequals
  | case3 first =>
      intro char hmem
      simp only [List.mem_cons, List.not_mem_nil, or_false] at hmem
      rcases hmem with rfl | rfl | rfl | rfl
      · exact base64Char_mem _
      · exact base64Char_mem _
      · exact hequals
      · exact hequals
  | case4 =>
      intro char hmem
      cases hmem

/-- A printable character of ASCII is written as it is, unless it ends or escapes a string. -/
def Plain (char : Char) : Prop :=
  0x20 ≤ char.toNat ∧ char.toNat ≤ 0x7E ∧ char.toNat ≠ 0x22 ∧ char.toNat ≠ 0x5C

instance (char : Char) : Decidable (Plain char) :=
  inferInstanceAs (Decidable (_ ∧ _))

theorem escape_of_plain {char : Char} (hplain : Plain char) : escape (ofChar char) = [char] := by
  obtain ⟨hlow, hhigh, hquote, hbackslash⟩ := hplain
  have hval : (ofChar char : ℕ) = char.toNat := by
    apply Nat.mod_eq_of_lt
    omega
  have hne : ∀ other : CodePoint, char.toNat ≠ other → ofChar char ≠ other := by
    intro other hne heq
    rw [← heq, hval] at hne
    exact hne rfl
  have hcontrol : ∀ other : CodePoint, (other : ℕ) < 0x20 → ofChar char ≠ other := by
    intro other hother
    apply hne
    omega
  unfold escape
  rw [if_neg (hne 0x22 hquote), if_neg (hne 0x5C hbackslash), if_neg (hcontrol 0x08 (by decide)),
    if_neg (hcontrol 0x09 (by decide)), if_neg (hcontrol 0x0A (by decide)),
    if_neg (hcontrol 0x0C (by decide)), if_neg (hcontrol 0x0D (by decide)), if_pos, hval,
    Char.ofNat_toNat]
  constructor
  · change 0x20 ≤ (ofChar char : ℕ)
    omega
  · change (ofChar char : ℕ) ≤ 0x7E
    omega

theorem escape_base64 {char : Char} (hmem : char ∈ '=' :: base64Alphabet) :
    escape (ofChar char) = [char] := by
  have hplain : ('=' :: base64Alphabet).all (fun char => decide (Plain char)) = true := rfl
  exact escape_of_plain (of_decide_eq_true (List.all_eq_true.mp hplain char hmem))

theorem quote_b64encode (bytes : Bytes) :
    quote ((b64encode bytes).map ofChar) = "\"".toList ++ b64encode bytes ++ "\"".toList := by
  have hescape : ((b64encode bytes).map ofChar).flatMap escape = b64encode bytes := by
    have hmem : ∀ char ∈ b64encode bytes, char ∈ '=' :: base64Alphabet := mem_b64encode
    generalize b64encode bytes = text at hmem ⊢
    induction text with
    | nil => rfl
    | cons char chars ih =>
        obtain ⟨hchar, hchars⟩ := List.forall_mem_cons.mp hmem
        rw [List.map_cons, List.flatMap_cons, escape_base64 hchar, ih hchars]
        rfl
  rw [quote, hescape]

theorem renderEntries_cons (key : CodePoints) (value : Value)
    (entries : List (CodePoints × Value)) :
    renderEntries ((key, value) :: entries) =
      quote key ++ ": ".toList ++ render value ++
        if entries = [] then [] else ", ".toList ++ renderEntries entries := by
  cases entries with
  | nil => simp [renderEntries]
  | cons entry entries => simp [renderEntries]

theorem render_jsonifyBlob (value : Value) : render (jsonifyBlob value) = render value := by
  cases value with
  | bytes value => simp only [jsonifyBlob, render, quote_b64encode]
  | null | bool | int | float | str | list | dict => rfl

/-- The blobs of the first level become the strings they stand for. -/
theorem render_jsonifyBlobs (body : List (CodePoints × Value)) :
    render (.dict (jsonifyBlobs body)) = render (.dict body) := by
  have hentries : renderEntries (jsonifyBlobs body) = renderEntries body := by
    unfold jsonifyBlobs
    induction body with
    | nil => rfl
    | cons entry body ih =>
        obtain ⟨key, value⟩ := entry
        rw [List.map_cons, renderEntries_cons, renderEntries_cons, render_jsonifyBlob, ih]
        simp only [List.map_eq_nil_iff]
  rw [render, render, hentries]

theorem hasBlob_jsonifyBlob_eq_false {value : Value} :
    hasBlob (jsonifyBlob value) = false ↔
      (hasBlob value → ∃ bytes, value = .bytes bytes) := by
  cases value <;> simp [jsonifyBlob, hasBlob]

theorem hasBlob_jsonifyBlobs_eq_false {event : Event} :
    hasBlob (.dict (jsonifyBlobs event.body)) = false ↔ event.BlobsOnTop := by
  unfold Event.BlobsOnTop jsonifyBlobs
  rw [hasBlob]
  induction event.body with
  | nil => simp [entriesHaveBlob]
  | cons entry body ih =>
      rw [List.map_cons, entriesHaveBlob, Bool.or_eq_false_iff, hasBlob_jsonifyBlob_eq_false, ih,
        List.forall_mem_cons]

/-! ### The stream -/

theorem eventFrame_eq_ok {event : Event} {bytes : Bytes} :
    eventFrame event = .ok bytes ↔ event.BlobsOnTop ∧ event.frame.Encodes bytes := by
  unfold eventFrame dumps
  rw [← hasBlob_jsonifyBlobs_eq_false, ← encodeEvent_eq_ok, render_jsonifyBlobs]
  by_cases hblob : hasBlob (.dict (jsonifyBlobs event.body)) = false
  · rw [hblob]
    exact ⟨fun hok => ⟨rfl, hok⟩, fun hok => hok.2⟩
  · rw [if_pos (by simpa using hblob)]
    constructor
    · intro hok
      cases hok
    · intro hok
      exact absurd hok.1 hblob

theorem exceptionFrame_eq_ok {code message : CodePoints} {bytes : Bytes} :
    exceptionFrame code message = .ok bytes ↔ (errorFrame code message).Encodes bytes := by
  rw [← encodeEvent_eq_ok]
  rfl

theorem Frame.Encodes.fits {frame : Frame} {bytes : Bytes} (hencodes : frame.Encodes bytes) :
    frame.Fits := by
  obtain ⟨message, hmessage, hfits, -⟩ := hencodes
  exact ⟨message, hmessage, hfits⟩

theorem Frame.Fits.encodes {frame : Frame} (hfits : frame.Fits) :
    ∃ bytes, frame.Encodes bytes := by
  obtain ⟨message, hmessage, hfits⟩ := hfits
  exact ⟨_, message, hmessage, hfits, rfl⟩

/-- The end of a stream that fails: its exception frame, or nothing at all. -/
theorem failStream_encodes (response : GatewayResponse) (code message : CodePoints) :
    ∃ frames, List.Forall₂ Frame.Encodes frames (failStream response code message).frames ∧
      ((frames = [] ∧ ¬ (errorFrame code message).Fits) ∨
        (frames = [errorFrame code message] ∧ (errorFrame code message).Fits)) := by
  unfold failStream
  cases hframe : exceptionFrame code message with
  | ok frame =>
      have hencodes := exceptionFrame_eq_ok.mp hframe
      exact ⟨_, .cons hencodes .nil, .inr ⟨rfl, hencodes.fits⟩⟩
  | error raised =>
      refine ⟨[], .nil, .inl ⟨rfl, fun hfits => ?_⟩⟩
      obtain ⟨bytes, hencodes⟩ := hfits.encodes
      rw [exceptionFrame_eq_ok.mpr hencodes] at hframe
      cases hframe

theorem errorFrame_ne_frame (code message : CodePoints) (event : Event) :
    errorFrame code message ≠ event.frame := by
  intro heq
  have hlength : 4 = 3 := congrArg (fun frame : Frame => frame.headers.length) heq
  cases hlength

/-- The bytes are those of some frames, the expected ones just when each of these can be encoded. -/
theorem encodeEventStream_encodes (text : Raised → CodePoints) (response : GatewayResponse)
    (failure : Option Failure) (events : List Event) :
    ∃ frames, List.Forall₂ Frame.Encodes frames
        (encodeEventStream text response failure events).frames ∧
      (frames = expected events failure ↔
        (∀ event ∈ events, event.BlobsOnTop ∧ event.frame.Fits) ∧
          ∀ error ∈ failure, (errorFrame error.code error.message).Fits) := by
  induction events generalizing response with
  | nil =>
      cases failure with
      | none => exact ⟨[], .nil, by simp [expected]⟩
      | some failure =>
          obtain ⟨frames, hencodes, hframes⟩ :=
            failStream_encodes response failure.code failure.message
          refine ⟨frames, hencodes, ?_⟩
          rcases hframes with ⟨rfl, hfits⟩ | ⟨rfl, hfits⟩
          · simp [expected, hfits]
          · simp [expected, hfits]
  | cons event events ih =>
      rw [encodeEventStream]
      cases hframe : eventFrame event with
      | ok frame =>
          obtain ⟨hblobs, hencodes⟩ := eventFrame_eq_ok.mp hframe
          obtain ⟨frames, hrest, hiff⟩ := ih _
          refine ⟨event.frame :: frames, .cons hencodes hrest, ?_⟩
          have hcons : expected (event :: events) failure =
              event.frame :: expected events failure := rfl
          rw [hcons, List.cons.injEq, hiff, List.forall_mem_cons]
          have hfits := hencodes.fits
          constructor
          · rintro ⟨-, hevents, hfailure⟩
            exact ⟨⟨⟨hblobs, hfits⟩, hevents⟩, hfailure⟩
          · rintro ⟨⟨-, hevents⟩, hfailure⟩
            exact ⟨rfl, hevents, hfailure⟩
      | error raised =>
          obtain ⟨frames, hencodes, hframes⟩ :=
            failStream_encodes _ raised.typeName (text raised)
          refine ⟨frames, hencodes, iff_of_false ?_ ?_⟩
          · intro heq
            rcases hframes with ⟨rfl, -⟩ | ⟨rfl, -⟩
            · cases heq
            · exact errorFrame_ne_frame _ _ event (List.cons.inj heq).1
          · rintro ⟨hevents, -⟩
            obtain ⟨hblobs, hfits⟩ := hevents event List.mem_cons_self
            obtain ⟨bytes, hencodes⟩ := hfits.encodes
            rw [eventFrame_eq_ok.mpr ⟨hblobs, hencodes⟩] at hframe
            cases hframe

/-- The agent's client reads the events and the failure the gateway's client had, for every stream
and every failure. -/
theorem stream_lossless (text : Raised → CodePoints) (events : List Event)
    (failure : Option Failure) :
    decodeStream (encodeEventStream text {} failure events).frames.flatten =
        some (expected events failure) ↔
      (∀ event ∈ events, event.BlobsOnTop ∧ event.frame.Fits) ∧
        ∀ error ∈ failure, (errorFrame error.code error.message).Fits := by
  obtain ⟨frames, hencodes, hiff⟩ := encodeEventStream_encodes text {} failure events
  rw [decodeStream_of_encodes hencodes, Option.some.injEq, hiff]

/-- A reasoning block that the service redacted: its blob is three levels down. -/
def redactedReasoning : Event where
  eventType := ofString "contentBlockDelta"
  body := [(ofString "delta",
    .dict [(ofString "reasoningContent", .dict [(ofString "redactedContent", .bytes [1, 2, 3])])])]

theorem nested_blob_lost :
    decodeStream (encodeEventStream (fun _ => ofString "not JSON serializable") {} none
      [redactedReasoning]).frames.flatten ≠ some (expected [redactedReasoning] none) := by
  obtain ⟨frames, hencodes, hiff⟩ := encodeEventStream_encodes
    (fun _ => ofString "not JSON serializable") {} none [redactedReasoning]
  rw [decodeStream_of_encodes hencodes]
  intro heq
  obtain ⟨hblobs, -⟩ := (hiff.mp (Option.some.inj heq)).1 redactedReasoning List.mem_cons_self
  obtain ⟨bytes, hbytes⟩ := hblobs _ List.mem_cons_self (by decide)
  cases hbytes

end CanyonOS.Gateway.Bedrock
