import Mathlib

/-!
# Event-stream framing

The binary format of event streams: a prelude with the lengths of the message and of its headers,
its checksum, the headers, the payload, and the checksum of all of it. Integers are big-endian. The
checksum is a parameter; `crc32` is the one in use.
-/

namespace EventStream

abbrev Bytes := List UInt8

/-! ### Integers -/

def be8 (value : ℕ) : Bytes := [.ofNat value]

def be16 (value : ℕ) : Bytes := [.ofNat (value / 2 ^ 8), .ofNat value]

def be32 (value : ℕ) : Bytes :=
  [.ofNat (value / 2 ^ 24), .ofNat (value / 2 ^ 16), .ofNat (value / 2 ^ 8), .ofNat value]

def readBe (bytes : Bytes) : ℕ :=
  bytes.foldl (fun value byte => value * 2 ^ 8 + byte.toNat) 0

theorem readBe_be8 {value : ℕ} (hfits : value < 2 ^ 8) : readBe (be8 value) = value := by
  simp only [readBe, be8, List.foldl_cons, List.foldl_nil, UInt8.toNat_ofNat']
  omega

theorem readBe_be16 {value : ℕ} (hfits : value < 2 ^ 16) : readBe (be16 value) = value := by
  simp only [readBe, be16, List.foldl_cons, List.foldl_nil, UInt8.toNat_ofNat']
  omega

theorem readBe_be32 {value : ℕ} (hfits : value < 2 ^ 32) : readBe (be32 value) = value := by
  simp only [readBe, be32, List.foldl_cons, List.foldl_nil, UInt8.toNat_ofNat']
  omega

/-! ### Reading -/

/-- The next `count` bytes, and the rest. -/
def split (count : ℕ) (bytes : Bytes) : Option (Bytes × Bytes) :=
  if count ≤ bytes.length then some (bytes.take count, bytes.drop count) else none

theorem split_append {count : ℕ} {bytes : Bytes} (hlength : bytes.length = count) (rest : Bytes) :
    split count (bytes ++ rest) = some (bytes, rest) := by
  subst hlength
  simp [split]

variable {α : Type*}

/-- Items up to the end of the bytes, at most `fuel` of them. -/
def decodeAll (decode : Bytes → Option (α × Bytes)) : ℕ → Bytes → Option (List α)
  | _, [] => some []
  | 0, _ :: _ => none
  | fuel + 1, bytes => do
      let (item, rest) ← decode bytes
      let items ← decodeAll decode fuel rest
      some (item :: items)

theorem decodeAll_of_ne_nil (decode : Bytes → Option (α × Bytes)) (fuel : ℕ) {bytes : Bytes}
    (hne : bytes ≠ []) :
    decodeAll decode (fuel + 1) bytes = (do
      let (item, rest) ← decode bytes
      let items ← decodeAll decode fuel rest
      some (item :: items)) := by
  cases bytes with
  | nil => exact absurd rfl hne
  | cons byte bytes => rfl

/-- Items that each decode by themselves decode one after the other. -/
theorem decodeAll_flatMap {decode : Bytes → Option (α × Bytes)} {encode : α → Bytes}
    {items : List α} (hne : ∀ item ∈ items, encode item ≠ [])
    (hdecode : ∀ item ∈ items, ∀ rest, decode (encode item ++ rest) = some (item, rest))
    {fuel : ℕ} (hfuel : items.length ≤ fuel) :
    decodeAll decode fuel (items.flatMap encode) = some items := by
  induction items generalizing fuel with
  | nil => cases fuel <;> rfl
  | cons item items ih =>
      cases fuel with
      | zero => cases hfuel
      | succ fuel =>
          have htail := ih (fun other hmem => hne other (List.mem_cons_of_mem _ hmem))
            (fun other hmem => hdecode other (List.mem_cons_of_mem _ hmem))
            (Nat.le_of_succ_le_succ hfuel)
          have hhead := hne item List.mem_cons_self
          rw [List.flatMap_cons, decodeAll_of_ne_nil decode fuel (by simp [hhead]),
            hdecode item List.mem_cons_self]
          simp [htail]

/-- Every item takes a byte at least. -/
theorem length_le_length_flatMap {encode : α → Bytes} {items : List α}
    (hne : ∀ item ∈ items, encode item ≠ []) : items.length ≤ (items.flatMap encode).length := by
  induction items with
  | nil => exact Nat.le_refl 0
  | cons item items ih =>
      have htail := ih fun other hmem => hne other (List.mem_cons_of_mem _ hmem)
      have hhead := List.length_pos_iff.mpr (hne item List.mem_cons_self)
      rw [List.flatMap_cons, List.length_append, List.length_cons]
      omega

/-! ### Headers -/

/-- A header with a string value, the bytes of both. -/
structure Header where
  name : Bytes
  value : Bytes
deriving DecidableEq

/-- The type number of string values. -/
def headerTypeString : UInt8 := 7

def encodeHeader (header : Header) : Bytes :=
  be8 header.name.length ++ header.name ++ [headerTypeString] ++ be16 header.value.length ++
    header.value

def decodeHeader (bytes : Bytes) : Option (Header × Bytes) := do
  let (nameLength, bytes) ← split 1 bytes
  let (name, bytes) ← split (readBe nameLength) bytes
  let (type, bytes) ← split 1 bytes
  if type = [headerTypeString] then
    let (valueLength, bytes) ← split 2 bytes
    let (value, bytes) ← split (readBe valueLength) bytes
    some ({ name, value }, bytes)
  else none

/-- The lengths of a header have room in their fields. -/
structure Header.Fits (header : Header) : Prop where
  name : header.name.length < 2 ^ 8
  value : header.value.length < 2 ^ 16

theorem encodeHeader_ne_nil (header : Header) : encodeHeader header ≠ [] := by
  simp [encodeHeader, be8]

theorem decodeHeader_encodeHeader {header : Header} (hfits : header.Fits) (rest : Bytes) :
    decodeHeader (encodeHeader header ++ rest) = some (header, rest) := by
  have hname : (be8 header.name.length).length = 1 := rfl
  have htype : [headerTypeString].length = 1 := rfl
  have hvalue : (be16 header.value.length).length = 2 := rfl
  unfold decodeHeader encodeHeader
  simp only [List.append_assoc, Option.bind_eq_bind]
  rw [split_append hname]
  simp only [Option.bind_some, readBe_be8 hfits.name]
  rw [split_append rfl]
  simp only [Option.bind_some]
  rw [split_append htype]
  simp only [Option.bind_some, if_true]
  rw [split_append hvalue]
  simp only [Option.bind_some, readBe_be16 hfits.value]
  rw [split_append rfl]
  rfl

def encodeHeaders (headers : List Header) : Bytes :=
  headers.flatMap encodeHeader

def decodeHeaders (bytes : Bytes) : Option (List Header) :=
  decodeAll decodeHeader bytes.length bytes

theorem decodeHeaders_encodeHeaders {headers : List Header}
    (hfits : ∀ header ∈ headers, header.Fits) :
    decodeHeaders (encodeHeaders headers) = some headers := by
  apply decodeAll_flatMap
  · intro header _
    exact encodeHeader_ne_nil header
  · intro header hmem rest
    exact decodeHeader_encodeHeader (hfits header hmem) rest
  · exact length_le_length_flatMap fun header _ => encodeHeader_ne_nil header

/-! ### Messages -/

structure Message where
  headers : List Header
  payload : Bytes
deriving DecidableEq

def Message.totalLength (message : Message) : ℕ :=
  8 + 4 + (encodeHeaders message.headers).length + message.payload.length + 4

structure Message.Fits (message : Message) : Prop where
  headers : ∀ header ∈ message.headers, header.Fits
  total : message.totalLength < 2 ^ 32

section Checksum

variable (checksum : Bytes → UInt32)

def encodeChecksum (bytes : Bytes) : Bytes :=
  be32 (checksum bytes).toNat

/-- The bytes the last checksum is of. -/
def encodeBody (message : Message) : Bytes :=
  let headers := encodeHeaders message.headers
  let prelude := be32 message.totalLength ++ be32 headers.length
  prelude ++ encodeChecksum checksum prelude ++ headers ++ message.payload

def encodeMessage (message : Message) : Bytes :=
  encodeBody checksum message ++ encodeChecksum checksum (encodeBody checksum message)

def decodeMessage (bytes : Bytes) : Option (Message × Bytes) := do
  let (prelude, bytes) ← split 8 bytes
  let (preludeChecksum, bytes) ← split 4 bytes
  let totalLength := readBe (prelude.take 4)
  let headersLength := readBe (prelude.drop 4)
  if preludeChecksum = encodeChecksum checksum prelude ∧ headersLength + 16 ≤ totalLength then
    let (headers, bytes) ← split headersLength bytes
    let (payload, bytes) ← split (totalLength - headersLength - 16) bytes
    let (messageChecksum, bytes) ← split 4 bytes
    if messageChecksum =
        encodeChecksum checksum (prelude ++ preludeChecksum ++ headers ++ payload) then
      let headers ← decodeHeaders headers
      some ({ headers, payload }, bytes)
    else none
  else none

def decodeMessages (bytes : Bytes) : Option (List Message) :=
  decodeAll (decodeMessage checksum) bytes.length bytes

theorem length_encodeChecksum (bytes : Bytes) : (encodeChecksum checksum bytes).length = 4 := rfl

theorem encodeMessage_ne_nil (message : Message) : encodeMessage checksum message ≠ [] := by
  simp [encodeMessage, encodeBody, be32]

theorem decodeMessage_encodeMessage {message : Message} (hfits : message.Fits) (rest : Bytes) :
    decodeMessage checksum (encodeMessage checksum message ++ rest) = some (message, rest) := by
  obtain ⟨headers, payload⟩ := message
  set total := Message.totalLength { headers, payload } with htotal
  set prelude := be32 total ++ be32 (encodeHeaders headers).length with hprelude
  have hsum : total = (encodeHeaders headers).length + payload.length + 16 := by
    simp only [htotal, Message.totalLength]
    omega
  have hbound : total < 2 ^ 32 := hfits.total
  have htake : readBe (prelude.take 4) = total := readBe_be32 hbound
  have hdrop : readBe (prelude.drop 4) = (encodeHeaders headers).length :=
    readBe_be32 (by omega)
  have hlength : prelude.length = 8 := rfl
  have hencode : encodeMessage checksum { headers, payload } ++ rest =
      prelude ++ (encodeChecksum checksum prelude ++ (encodeHeaders headers ++ (payload ++
        (encodeChecksum checksum (prelude ++ encodeChecksum checksum prelude ++
          encodeHeaders headers ++ payload) ++ rest)))) := by
    simp only [encodeMessage, encodeBody, List.append_assoc]
    rfl
  rw [hencode]
  unfold decodeMessage
  simp only [Option.bind_eq_bind]
  rw [split_append hlength]
  simp only [Option.bind_some]
  rw [split_append (length_encodeChecksum checksum prelude)]
  simp only [Option.bind_some, htake, hdrop]
  rw [if_pos ⟨trivial, by omega⟩, split_append rfl]
  simp only [Option.bind_some]
  rw [split_append (by omega)]
  simp only [Option.bind_some]
  rw [split_append (length_encodeChecksum checksum _)]
  simp only [Option.bind_some, if_true]
  rw [decodeHeaders_encodeHeaders hfits.headers]
  rfl

/-- A stream of messages decodes to the messages. -/
theorem decodeMessages_flatMap {messages : List Message}
    (hfits : ∀ message ∈ messages, message.Fits) :
    decodeMessages checksum (messages.flatMap (encodeMessage checksum)) = some messages := by
  apply decodeAll_flatMap
  · intro message _
    exact encodeMessage_ne_nil checksum message
  · intro message hmem rest
    exact decodeMessage_encodeMessage checksum (hfits message hmem) rest
  · exact length_le_length_flatMap fun message _ => encodeMessage_ne_nil checksum message

end Checksum

/-! ### The checksum -/

def crc32Bit (crc : UInt32) : UInt32 :=
  if crc &&& 1 = 1 then crc >>> 1 ^^^ 0xEDB88320 else crc >>> 1

def crc32Byte (crc : UInt32) (byte : UInt8) : UInt32 :=
  crc32Bit^[8] (crc ^^^ byte.toUInt32)

def crc32 (bytes : Bytes) : UInt32 :=
  bytes.foldl crc32Byte 0xFFFFFFFF ^^^ 0xFFFFFFFF

-- the check value of this checksum, of the digits 1 to 9
example : crc32 [49, 50, 51, 52, 53, 54, 55, 56, 57] = 0xCBF43926 := by decide +kernel

end EventStream
