import CanyonOS.Lib.JsonValue
import CanyonOS.Lib.Pattern

/-!
# Usage events

An event as the CLI builds and checks it, and as the usage API accepts it.
-/

namespace CanyonOS.Usage

open CodePoints

/-! ### Characters -/

/-- What the interpreter's tables say of the decimal digits: which they are beyond ASCII depends on
its version. -/
structure UnicodeData where
  decimal : CodePoint → Option ℕ
  ascii : ∀ char : CodePoint, char.val < 0x80 →
    decimal char = if 0x30 ≤ char.val ∧ char.val ≤ 0x39 then some (char.val - 0x30) else none

def isAscii (char : CodePoint) : Bool :=
  char.val < 0x80

/-- `\d` of Python. -/
def UnicodeData.digit (unicode : UnicodeData) (char : CodePoint) : Bool :=
  (unicode.decimal char).isSome

/-- `\d` of JavaScript. -/
def asciiDigit (char : CodePoint) : Bool :=
  0x30 ≤ char.val && char.val ≤ 0x39

def asciiDecimal (char : CodePoint) : Option ℕ :=
  if 0x30 ≤ char.val ∧ char.val ≤ 0x39 then some (char.val - 0x30) else none

/-- `[from-to]` -/
def range (first last : Char) (char : CodePoint) : Bool :=
  first.toNat ≤ char.val && char.val ≤ last.toNat

def is (expected : Char) (char : CodePoint) : Bool :=
  char.val = expected.toNat

def literal (expected : Char) : Pattern CodePoint :=
  .one (is expected)

def newline : CodePoint :=
  ofChar '\n'

/-- `match` of a pattern between `^` and `$`, which also stands before a last newline. -/
def pyMatch (pattern : Pattern CodePoint) (text : CodePoints) : Bool :=
  pattern.accepts text || (text.getLast? == some newline && pattern.accepts text.dropLast)

/-! ### Patterns -/

section Patterns

variable (digit : CodePoint → Bool)

/-- `UTC_TIMESTAMP` -/
def utcTimestamp : Pattern CodePoint :=
  .seqs [.times (.one digit) 4, literal '-', .times (.one digit) 2, literal '-',
    .times (.one digit) 2, literal 'T', .times (.one digit) 2, literal ':',
    .times (.one digit) 2, literal ':', .times (.one digit) 2,
    .optional (.seq (literal '.') (.upTo (.one digit) 8)), literal 'Z']

/-- `SEMVER_LIKE` -/
def semverLike : Pattern CodePoint :=
  .seqs [.many1 (.one digit), literal '.', .many1 (.one digit), literal '.', .many1 (.one digit),
    .optional (.seqs [literal 'r', literal 'c', .many1 (.one digit)]),
    .optional (.seq (.one fun char => is '-' char || is '+' char)
      (.many1 (.one fun char => range '0' '9' char || range 'A' 'Z' char || range 'a' 'z' char ||
        is '.' char || is '+' char || is '-' char)))]

/-- The month, day, hour, minute and second of `strptime`. -/
def monthField : Pattern CodePoint :=
  .alt (.seq (literal '1') (.one (range '0' '2')))
    (.alt (.seq (literal '0') (.one (range '1' '9'))) (.one (range '1' '9')))

def dayField : Pattern CodePoint :=
  .alt (.seq (literal '3') (.one (range '0' '1')))
    (.alt (.seq (.one (range '1' '2')) (.one digit))
      (.alt (.seq (literal '0') (.one (range '1' '9')))
        (.alt (.one (range '1' '9')) (.seq (literal ' ') (.one (range '1' '9'))))))

def hourField : Pattern CodePoint :=
  .alt (.seq (literal '2') (.one (range '0' '3')))
    (.alt (.seq (.one (range '0' '1')) (.one digit)) (.one digit))

def minuteField : Pattern CodePoint :=
  .alt (.seq (.one (range '0' '5')) (.one digit)) (.one digit)

def secondField : Pattern CodePoint :=
  .alt (.seq (literal '6') (.one (range '0' '1')))
    (.alt (.seq (.one (range '0' '5')) (.one digit)) (.one digit))

/-- `%Y-%m-%dT%H:%M:%S`. Between the separators of a timestamp no field has another length. -/
def strptimeFormat : Pattern CodePoint :=
  .seqs [.times (.one digit) 4, literal '-', monthField, literal '-', dayField digit, literal 'T',
    hourField digit, literal ':', minuteField digit, literal ':', secondField digit]

end Patterns

/-- `[0-9a-f]` -/
def isHex (char : CodePoint) : Bool :=
  range '0' '9' char || range 'a' 'f' char

/-- `UUID_V4` -/
def uuidV4 : Pattern CodePoint :=
  let hex : Pattern CodePoint := .one isHex
  .seqs [hex.times 8, literal '-', hex.times 4, literal '-', literal '4', hex.times 3,
    literal '-', .one (fun char => is '8' char || is '9' char || is 'a' char || is 'b' char),
    hex.times 3, literal '-', hex.times 12]

/-! ### Numbers -/

/-- The last digits of a number in a base, so many, the highest first. -/
def digitsOf (base : ℕ) : ℕ → ℕ → List ℕ
  | 0, _ => []
  | count + 1, value => digitsOf base count (value / base) ++ [value % base]

/-- The character of a digit, hexadecimal ones too. -/
def digitChar (digit : ℕ) : CodePoint :=
  ofChar (Nat.digitChar digit)

/-- `int` of decimal digits. -/
def number (decimal : CodePoint → Option ℕ) (text : CodePoints) : ℕ :=
  text.foldl (fun value char => 10 * value + (decimal char).getD 0) 0

def hexDecimal (char : CodePoint) : Option ℕ :=
  if range '0' '9' char then some (char.val - 0x30)
  else if range 'a' 'f' char then some (char.val - 0x57)
  else if range 'A' 'F' char then some (char.val - 0x37)
  else none

/-! ### Identifiers -/

/-- `str` of a UUID. -/
def uuidText (uuid : ℕ) : CodePoints :=
  let hex := (digitsOf 16 32 uuid).map digitChar
  hex.take 8 ++ [ofChar '-'] ++ (hex.drop 8).take 4 ++ [ofChar '-'] ++ (hex.drop 12).take 4 ++
    [ofChar '-'] ++ (hex.drop 16).take 4 ++ [ofChar '-'] ++ hex.drop 20

/-- `uuid.UUID` of a text. It takes more than this (a prefix, braces, what else `int` takes), but
nothing of it that `str` would write again. -/
def parseUuid (text : CodePoints) : Option ℕ :=
  let hex := text.filter (· ≠ ofChar '-')
  if hex.length = 32 ∧ hex.all fun char => (hexDecimal char).isSome then
    some (hex.foldl (fun value char => 16 * value + (hexDecimal char).getD 0) 0)
  else none

/-- Of the variant that has versions, and of version 4. -/
def isVersion4 (uuid : ℕ) : Bool :=
  uuid / 2 ^ 62 % 4 = 2 && uuid / 2 ^ 76 % 16 = 4

def isUuid4 (text : CodePoints) : Bool :=
  match parseUuid text with
  | none => false
  | some uuid => isVersion4 uuid && decide (uuidText uuid = text)

/-! ### Times -/

structure UtcFields where
  year : ℕ
  month : ℕ
  day : ℕ
  hour : ℕ
  minute : ℕ
  second : ℕ
deriving DecidableEq

def isLeap (year : ℕ) : Bool :=
  year % 4 = 0 && (year % 100 ≠ 0 || year % 400 = 0)

def daysIn (year month : ℕ) : ℕ :=
  if month = 2 then if isLeap year then 29 else 28
  else if month ∈ [4, 6, 9, 11] then 30
  else 31

/-- A time of a calendar day. -/
structure UtcFields.Valid (fields : UtcFields) : Prop where
  month : 1 ≤ fields.month ∧ fields.month ≤ 12
  day : 1 ≤ fields.day ∧ fields.day ≤ daysIn fields.year fields.month
  hour : fields.hour ≤ 23
  minute : fields.minute ≤ 59
  second : fields.second ≤ 59

instance (fields : UtcFields) : Decidable fields.Valid :=
  decidable_of_iff ((1 ≤ fields.month ∧ fields.month ≤ 12) ∧
      (1 ≤ fields.day ∧ fields.day ≤ daysIn fields.year fields.month) ∧ fields.hour ≤ 23 ∧
      fields.minute ≤ 59 ∧ fields.second ≤ 59)
    ⟨fun ⟨month, day, hour, minute, second⟩ => ⟨month, day, hour, minute, second⟩,
      fun ⟨month, day, hour, minute, second⟩ => ⟨month, day, hour, minute, second⟩⟩

/-- The fields of `2026-10-08T09:30:00`. -/
def fieldsOf (decimal : CodePoint → Option ℕ) (text : CodePoints) : UtcFields where
  year := number decimal (text.take 4)
  month := number decimal ((text.drop 5).take 2)
  day := number decimal ((text.drop 8).take 2)
  hour := number decimal ((text.drop 11).take 2)
  minute := number decimal ((text.drop 14).take 2)
  second := number decimal ((text.drop 17).take 2)

/-- Whether `datetime.strptime` takes the text: the fields match, and a `datetime` can be made of
them, which has neither a year 0 nor a second 60. -/
def strptime (unicode : UnicodeData) (text : CodePoints) : Bool :=
  (strptimeFormat unicode.digit).accepts text &&
    decide (1 ≤ (fieldsOf unicode.decimal text).year ∧ (fieldsOf unicode.decimal text).Valid)

def isUtcTimestamp (unicode : UnicodeData) (text : CodePoints) : Bool :=
  pyMatch (utcTimestamp unicode.digit) text && strptime unicode (text.take 19)

/-! ### The CLI's check -/

def reportedCommands : List CodePoints :=
  ["new-app", "convert", "validate", "deploy", "test", "serve", "stop", "clean", "build",
    "quit"].map ofString

def eventKeys : List CodePoints :=
  ["event_id", "installation_id", "command", "succeeded", "occurred_at", "cli_version"].map
    ofString

def maxCliVersionLength : ℕ := 64

def isReportableVersion (unicode : UnicodeData) (version : CodePoints) : Bool :=
  decide (version.length ≤ maxCliVersionLength) && pyMatch (semverLike unicode.digit) version

def hasEventKeys (items : List (CodePoints × JsonValue)) : Bool :=
  (items.map Prod.fst).all (· ∈ eventKeys) && eventKeys.all (· ∈ items.map Prod.fst)

def field (items : List (CodePoints × JsonValue)) (key : String) : JsonValue :=
  (JsonValue.get items (ofString key)).getD .null

/-- A check that only a string passes. -/
def strAnd (check : CodePoints → Bool) : JsonValue → Bool
  | .str text => check text
  | _ => false

def isBool : JsonValue → Bool
  | .bool _ => true
  | _ => false

/-- `in REPORTED_COMMANDS`; `none` is the `TypeError` of a value that has no hash. -/
def isReported : JsonValue → Option Bool
  | .list _ | .dict _ => none
  | .str text => some (decide (text ∈ reportedCommands))
  | _ => some false

/-- `is_valid_event`; `none` where it raises. -/
def isValidEvent (unicode : UnicodeData) (event : JsonValue) : Option Bool :=
  match event with
  | .dict items =>
      if hasEventKeys items && strAnd isUuid4 (field items "event_id") &&
          strAnd isUuid4 (field items "installation_id") then
        (isReported (field items "command")).map fun reported =>
          reported && isBool (field items "succeeded") &&
            strAnd (isUtcTimestamp unicode) (field items "occurred_at") &&
            strAnd (isReportableVersion unicode) (field items "cli_version")
      else some false
  | _ => some false

/-! ### The API's check -/

/-- The length of a string of JavaScript. -/
def utf16Length (text : CodePoints) : ℕ :=
  (text.map fun char => if char.val < 0x10000 then 1 else 2).sum

/-- `UsageEventSchema`, which refuses other keys. `datetime` is Zod's check of the time. -/
def usageEventSchema (datetime : CodePoints → Bool) (event : JsonValue) : Bool :=
  match event with
  | .dict items =>
      hasEventKeys items && strAnd uuidV4.accepts (field items "event_id") &&
        strAnd uuidV4.accepts (field items "installation_id") &&
        strAnd (fun text => decide (text ∈ reportedCommands)) (field items "command") &&
        isBool (field items "succeeded") && strAnd datetime (field items "occurred_at") &&
        strAnd (fun text => decide (utf16Length text ≤ maxCliVersionLength) &&
          (semverLike asciiDigit).accepts text) (field items "cli_version")
  | _ => false

/-- What Zod says of its check: it takes the times of ISO 8601 in UTC, with a fraction of any
length, and nothing else. -/
structure ZodDatetime (datetime : CodePoints → Bool) : Prop where
  accepts : ∀ text, (utcTimestamp asciiDigit).accepts text = true →
    (fieldsOf asciiDecimal text).Valid → datetime text = true
  ascii : ∀ text, datetime text = true → ∀ char ∈ text, isAscii char = true
  closed : ∀ text, datetime text = true → text.getLast? = some (ofChar 'Z')

/-! ### Building an event -/

/-- A time in UTC, of the years `datetime` has. -/
structure UtcTime where
  fields : UtcFields
  microsecond : ℕ
  valid : fields.Valid
  year_pos : 1 ≤ fields.year
  year_le : fields.year ≤ 9999
  microsecond_lt : microsecond < 1000000

/-- Decimal digits with zeros in front. -/
def padded (width value : ℕ) : CodePoints :=
  (digitsOf 10 width value).map digitChar

/-- `isoformat` in milliseconds, with `Z` for the offset. -/
def UtcTime.isoformat (time : UtcTime) : CodePoints :=
  padded 4 time.fields.year ++ [ofChar '-'] ++ padded 2 time.fields.month ++ [ofChar '-'] ++
    padded 2 time.fields.day ++ [ofChar 'T'] ++ padded 2 time.fields.hour ++ [ofChar ':'] ++
    padded 2 time.fields.minute ++ [ofChar ':'] ++ padded 2 time.fields.second ++
    [ofChar '.'] ++ padded 3 (time.microsecond / 1000) ++ [ofChar 'Z']

/-- What `build_event` is called with and draws. -/
structure Run where
  command : CodePoints
  succeeded : Bool
  installationId : CodePoints
  occurredAt : UtcTime
  /-- the number `uuid4` draws -/
  uuid : ℕ
  /-- `VERSION` -/
  version : CodePoints

def Run.buildEvent (run : Run) : JsonValue :=
  .dict [(ofString "event_id", .str (uuidText run.uuid)),
    (ofString "installation_id", .str run.installationId),
    (ofString "command", .str run.command),
    (ofString "succeeded", .bool run.succeeded),
    (ofString "occurred_at", .str run.occurredAt.isoformat),
    (ofString "cli_version", .str run.version)]

/-- `record_event` builds events of such runs only, and `uuid4` draws such numbers. -/
structure Run.Reportable (unicode : UnicodeData) (run : Run) : Prop where
  command : run.command ∈ reportedCommands
  installationId : isUuid4 run.installationId = true
  uuid : run.uuid < 2 ^ 128 ∧ isVersion4 run.uuid = true
  version : isReportableVersion unicode run.version = true

/-! ### The classes -/

theorem digit_and_isAscii (unicode : UnicodeData) (char : CodePoint) :
    (unicode.digit char && isAscii char) = asciiDigit char := by
  by_cases hascii : char.val < 0x80
  · rw [UnicodeData.digit, unicode.ascii char hascii, isAscii, asciiDigit]
    by_cases hdigit : 0x30 ≤ char.val ∧ char.val ≤ 0x39
    · simp [hdigit, hascii]
    · rw [if_neg hdigit]
      simp only [Option.isSome_none, Bool.false_and]
      rw [← Bool.decide_and]
      exact (decide_eq_false hdigit).symm
  · rw [isAscii, asciiDigit, decide_eq_false hascii, Bool.and_false, ← Bool.decide_and]
    symm
    apply decide_eq_false
    intro ⟨_, hhigh⟩
    exact hascii (by omega)

theorem digit_ne_newline (unicode : UnicodeData) {char : CodePoint}
    (hdigit : unicode.digit char = true) : char ≠ newline := by
  rintro rfl
  have hnewline : unicode.decimal newline = none := by
    rw [unicode.ascii newline (by decide)]
    rfl
  rw [UnicodeData.digit, hnewline] at hdigit
  cases hdigit

theorem and_eq_left {accepts keep : CodePoint → Bool}
    (hkeep : ∀ char, accepts char = true → keep char = true) :
    (fun char => accepts char && keep char) = accepts := by
  funext char
  cases haccepts : accepts char with
  | false => rfl
  | true => rw [hkeep char haccepts, Bool.and_self]

theorem is_and_isAscii {expected : Char} (hexpected : expected.toNat < 0x80) :
    (fun char => is expected char && isAscii char) = is expected := by
  apply and_eq_left
  intro char his
  rw [is, decide_eq_true_eq] at his
  rw [isAscii, decide_eq_true_eq, his]
  exact hexpected

theorem range_and_isAscii {first last : Char} (hlast : last.toNat < 0x80) :
    (fun char => range first last char && isAscii char) = range first last := by
  apply and_eq_left
  intro char hrange
  rw [range, Bool.and_eq_true, decide_eq_true_eq, decide_eq_true_eq] at hrange
  rw [isAscii, decide_eq_true_eq]
  omega

/-- Apart from the digits the classes are of ASCII. -/
theorem restrict_utcTimestamp (unicode : UnicodeData) :
    (utcTimestamp unicode.digit).restrict isAscii = utcTimestamp asciiDigit := by
  simp (disch := decide) only [utcTimestamp, literal, Pattern.seqs, Pattern.times, Pattern.optional,
    Pattern.upTo, Pattern.restrict, is_and_isAscii, digit_and_isAscii]

theorem restrict_strptimeFormat (unicode : UnicodeData) :
    (strptimeFormat unicode.digit).restrict isAscii = strptimeFormat asciiDigit := by
  simp (disch := decide) only [strptimeFormat, monthField, dayField, hourField, minuteField,
    secondField, literal, Pattern.seqs, Pattern.times, Pattern.restrict, is_and_isAscii,
    range_and_isAscii, digit_and_isAscii]

theorem restrict_semverLike (unicode : UnicodeData) :
    (semverLike unicode.digit).restrict isAscii = semverLike asciiDigit := by
  have hsign : (fun char => (is '-' char || is '+' char) && isAscii char) =
      fun char => is '-' char || is '+' char := by
    apply and_eq_left
    intro char hchar
    simp only [is, isAscii, Bool.or_eq_true, decide_eq_true_eq] at hchar ⊢
    rcases hchar with hchar | hchar <;> rw [hchar] <;> decide
  have htail : (fun char => (range '0' '9' char || range 'A' 'Z' char || range 'a' 'z' char ||
      is '.' char || is '+' char || is '-' char) && isAscii char) =
      fun char => range '0' '9' char || range 'A' 'Z' char || range 'a' 'z' char ||
        is '.' char || is '+' char || is '-' char := by
    apply and_eq_left
    intro char hchar
    have hlast : '9'.toNat = 57 ∧ 'Z'.toNat = 90 ∧ 'z'.toNat = 122 ∧ '.'.toNat = 46 ∧
        '+'.toNat = 43 ∧ '-'.toNat = 45 := by decide
    simp only [is, range, isAscii, Bool.or_eq_true, Bool.and_eq_true, decide_eq_true_eq]
      at hchar ⊢
    omega
  simp (disch := decide) only [semverLike, literal, Pattern.seqs, Pattern.many1, Pattern.optional,
    Pattern.restrict, is_and_isAscii, digit_and_isAscii, hsign, htail]

/-- The digits of JavaScript are those of Python in ASCII. -/
theorem accepts_asciiDigit {pattern narrowed : Pattern CodePoint}
    (hrestrict : pattern.restrict isAscii = narrowed) (text : CodePoints) :
    narrowed.accepts text = true ↔
      pattern.accepts text = true ∧ ∀ char ∈ text, isAscii char = true := by
  rw [← hrestrict, Pattern.accepts_restrict]

def isNotNewline (char : CodePoint) : Bool :=
  decide (char ≠ newline)

theorem within_literal {expected : Char} (hexpected : expected.toNat ≠ 10) :
    (literal expected).Within isNotNewline := by
  intro char his
  rw [isNotNewline, decide_eq_true_eq]
  rintro rfl
  rw [is, decide_eq_true_eq] at his
  exact hexpected his.symm

theorem within_digit (unicode : UnicodeData) :
    (Pattern.one unicode.digit).Within isNotNewline := by
  intro char hdigit
  exact decide_eq_true (digit_ne_newline unicode hdigit)

/-- A timestamp's pattern matches no newline. -/
theorem within_utcTimestamp (unicode : UnicodeData) :
    (utcTimestamp unicode.digit).Within isNotNewline := by
  have hdigit := within_digit unicode
  have hdash : (literal '-').Within isNotNewline := within_literal (by decide)
  have hcolon : (literal ':').Within isNotNewline := within_literal (by decide)
  refine (hdigit.times 4).cons <| hdash.cons <| (hdigit.times 2).cons <| hdash.cons <|
    (hdigit.times 2).cons <| (within_literal (by decide)).cons <| (hdigit.times 2).cons <|
    hcolon.cons <| (hdigit.times 2).cons <| hcolon.cons <| (hdigit.times 2).cons <|
    Pattern.Within.cons ?_ <| (within_literal (by decide)).cons Pattern.within_nil
  exact Pattern.Within.optional ⟨within_literal (by decide), hdigit.upTo 8⟩

/-- A version's pattern matches no newline. -/
theorem within_semverLike (unicode : UnicodeData) :
    (semverLike unicode.digit).Within isNotNewline := by
  have hdigits := (within_digit unicode).many1
  have hdot : (literal '.').Within isNotNewline := within_literal (by decide)
  refine hdigits.cons <| hdot.cons <| hdigits.cons <| hdot.cons <| hdigits.cons <|
    Pattern.Within.cons ?_ <| Pattern.Within.cons ?_ Pattern.within_nil
  · exact ((within_literal (by decide)).cons <| (within_literal (by decide)).cons <|
      hdigits.cons Pattern.within_nil).optional
  · refine Pattern.Within.optional ⟨?_, Pattern.Within.many1 ?_⟩
    · intro char hchar
      rw [isNotNewline, decide_eq_true_eq]
      rintro rfl
      revert hchar
      decide
    · intro char hchar
      rw [isNotNewline, decide_eq_true_eq]
      rintro rfl
      revert hchar
      decide

/-! ### Texts both sides read alike -/

/-- A text of ASCII without a newline. -/
def Plain (text : CodePoints) : Prop :=
  ∀ char ∈ text, isAscii char = true ∧ char ≠ newline

instance (text : CodePoints) : Decidable (Plain text) :=
  inferInstanceAs (Decidable (∀ char ∈ _, _))

theorem pyMatch_of_plain {pattern : Pattern CodePoint} {text : CodePoints} (hplain : Plain text)
    (hmatch : pyMatch pattern text = true) : pattern.accepts text = true := by
  rw [pyMatch, Bool.or_eq_true, Bool.and_eq_true] at hmatch
  rcases hmatch with haccepts | ⟨hlast, _⟩
  · exact haccepts
  · have hmem := List.mem_of_getLast? (eq_of_beq hlast)
    exact absurd rfl (hplain newline hmem).2

/-- A plain text that Python matches is one JavaScript matches. -/
theorem accepts_of_plain {pattern narrowed : Pattern CodePoint}
    (hrestrict : pattern.restrict isAscii = narrowed) {text : CodePoints} (hplain : Plain text)
    (hmatch : pyMatch pattern text = true) : narrowed.accepts text = true := by
  apply (accepts_asciiDigit hrestrict text).mpr
  exact ⟨pyMatch_of_plain hplain hmatch, fun char hmem => (hplain char hmem).1⟩

theorem plain_of_accepts {pattern narrowed : Pattern CodePoint}
    (hrestrict : pattern.restrict isAscii = narrowed) (hwithin : pattern.Within isNotNewline)
    {text : CodePoints} (haccepts : narrowed.accepts text = true) : Plain text := by
  obtain ⟨haccepts, hascii⟩ := (accepts_asciiDigit hrestrict text).mp haccepts
  intro char hmem
  exact ⟨hascii char hmem, of_decide_eq_true (Pattern.forall_of_accepts hwithin haccepts char hmem)⟩

theorem utf16Length_of_plain {text : CodePoints} (hplain : Plain text) :
    utf16Length text = text.length := by
  induction text with
  | nil => rfl
  | cons char text ih =>
      obtain ⟨hchar, htext⟩ := List.forall_mem_cons.mp hplain
      have hascii : char.val < 0x80 := of_decide_eq_true hchar.1
      rw [utf16Length, List.map_cons, List.sum_cons, if_pos (by omega), ← utf16Length, ih htext,
        List.length_cons, Nat.add_comm]

/-- A version the CLI reports is one the API takes just if it is plain. -/
theorem version_taken_iff {unicode : UnicodeData} {version : CodePoints}
    (hversion : isReportableVersion unicode version = true) :
    (decide (utf16Length version ≤ maxCliVersionLength) &&
      (semverLike asciiDigit).accepts version) = true ↔ Plain version := by
  rw [isReportableVersion, Bool.and_eq_true, decide_eq_true_eq] at hversion
  obtain ⟨hlength, hmatch⟩ := hversion
  rw [Bool.and_eq_true, decide_eq_true_eq]
  constructor
  · intro ⟨_, haccepts⟩
    exact plain_of_accepts (restrict_semverLike unicode) (within_semverLike unicode) haccepts
  · intro hplain
    rw [utf16Length_of_plain hplain]
    exact ⟨hlength, accepts_of_plain (restrict_semverLike unicode) hplain hmatch⟩

/-! ### Times -/

theorem number_congr {unicode : UnicodeData} {text : CodePoints}
    (hascii : ∀ char ∈ text, isAscii char = true) :
    number unicode.decimal text = number asciiDecimal text := by
  apply List.foldl_ext
  intro value char hmem
  rw [unicode.ascii char (of_decide_eq_true (hascii char hmem)), asciiDecimal]

theorem fieldsOf_congr {unicode : UnicodeData} {text : CodePoints}
    (hascii : ∀ char ∈ text, isAscii char = true) :
    fieldsOf unicode.decimal text = fieldsOf asciiDecimal text := by
  have htake : ∀ before count, number unicode.decimal ((text.drop before).take count) =
      number asciiDecimal ((text.drop before).take count) := by
    intro before count
    apply number_congr
    intro char hmem
    exact hascii char (List.mem_of_mem_drop (List.mem_of_mem_take hmem))
  have hyear := htake 0 4
  rw [List.drop_zero] at hyear
  rw [fieldsOf, fieldsOf, hyear, htake, htake, htake, htake, htake]

/-- The first nineteen characters are all the fields are read from. -/
theorem fieldsOf_take (decimal : CodePoint → Option ℕ) (text : CodePoints) :
    fieldsOf decimal (text.take 19) = fieldsOf decimal text := by
  simp [fieldsOf, List.take_take, List.drop_take]

/-- A time the CLI finds valid is one the API takes just if its text is plain. -/
theorem time_taken_iff {unicode : UnicodeData} {datetime : CodePoints → Bool}
    (hzod : ZodDatetime datetime) {text : CodePoints}
    (htime : isUtcTimestamp unicode text = true) : datetime text = true ↔ Plain text := by
  rw [isUtcTimestamp, Bool.and_eq_true] at htime
  obtain ⟨hmatch, hstrptime⟩ := htime
  constructor
  · intro htaken
    have hascii := hzod.ascii text htaken
    have haccepts : (utcTimestamp unicode.digit).accepts text = true := by
      rw [pyMatch, Bool.or_eq_true, Bool.and_eq_true] at hmatch
      apply hmatch.resolve_right
      intro ⟨hlast, _⟩
      rw [hzod.closed text htaken] at hlast
      revert hlast
      decide
    apply plain_of_accepts (restrict_utcTimestamp unicode) (within_utcTimestamp unicode)
    exact (accepts_asciiDigit (restrict_utcTimestamp unicode) text).mpr ⟨haccepts, hascii⟩
  · intro hplain
    have hascii : ∀ char ∈ text, isAscii char = true := fun char hmem => (hplain char hmem).1
    apply hzod.accepts
    · exact accepts_of_plain (restrict_utcTimestamp unicode) hplain hmatch
    · rw [strptime, Bool.and_eq_true, decide_eq_true_eq, fieldsOf_take] at hstrptime
      rw [← fieldsOf_congr hascii]
      exact hstrptime.2.2

/-! ### Digits -/

section Digits

variable {base : ℕ}

theorem length_digitsOf (count value : ℕ) : (digitsOf base count value).length = count := by
  induction count generalizing value with
  | zero => rfl
  | succ count ih => rw [digitsOf, List.length_append, ih, List.length_singleton]

theorem digitsOf_lt (hbase : 0 < base) (count value : ℕ) :
    ∀ digit ∈ digitsOf base count value, digit < base := by
  induction count generalizing value with
  | zero =>
      intro digit hmem
      cases hmem
  | succ count ih =>
      intro digit hmem
      rcases List.mem_append.mp hmem with hmem | hmem
      · exact ih _ digit hmem
      · rw [List.mem_singleton.mp hmem]
        exact Nat.mod_lt _ hbase

theorem digitsOf_add (count more value : ℕ) :
    digitsOf base (count + more) value =
      digitsOf base count (value / base ^ more) ++ digitsOf base more value := by
  induction more generalizing value with
  | zero => simp [digitsOf]
  | succ more ih =>
      rw [← Nat.add_assoc, digitsOf, ih, digitsOf, List.append_assoc, Nat.div_div_eq_div_mul,
        pow_succ']

theorem foldl_digitsOf (count value : ℕ) :
    (digitsOf base count value).foldl (fun total digit => base * total + digit) 0 =
      value % base ^ count := by
  induction count generalizing value with
  | zero => simp [digitsOf, Nat.mod_one]
  | succ count ih =>
      rw [digitsOf, List.foldl_append, ih, List.foldl_cons, List.foldl_nil, pow_succ',
        Nat.mod_mul, Nat.add_comm]

theorem take_digitsOf (count more value : ℕ) :
    (digitsOf base (count + more) value).take count =
      digitsOf base count (value / base ^ more) := by
  rw [digitsOf_add, List.take_left' (length_digitsOf count _)]

theorem drop_digitsOf (count more value : ℕ) :
    (digitsOf base (count + more) value).drop count = digitsOf base more value := by
  rw [digitsOf_add, List.drop_left' (length_digitsOf count _)]

end Digits

/-! ### Identifiers both sides take -/

def hexText (count value : ℕ) : CodePoints :=
  (digitsOf 16 count value).map digitChar

/-- The groups of a UUID, as numbers. -/
theorem uuidText_eq (uuid : ℕ) :
    uuidText uuid = hexText 8 (uuid / 16 ^ 24) ++ [ofChar '-'] ++ hexText 4 (uuid / 16 ^ 20) ++
      [ofChar '-'] ++ hexText 4 (uuid / 16 ^ 16) ++ [ofChar '-'] ++ hexText 4 (uuid / 16 ^ 12) ++
      [ofChar '-'] ++ hexText 12 uuid := by
  have hgroup : ∀ before count after, before + (count + after) = 32 →
      (((digitsOf 16 32 uuid).map digitChar).drop before).take count =
        hexText count (uuid / 16 ^ after) := by
    intro before count after hsum
    rw [← hsum, ← List.map_drop, drop_digitsOf, ← List.map_take, take_digitsOf, hexText]
  have hfirst := hgroup 0 8 24 rfl
  have hlast := hgroup 20 12 0 rfl
  rw [List.drop_zero] at hfirst
  rw [pow_zero, Nat.div_one, List.take_of_length_le] at hlast
  · rw [uuidText, hfirst, hgroup 8 4 20 rfl, hgroup 12 4 16 rfl, hgroup 16 4 12 rfl, hlast]
  · rw [List.length_drop, List.length_map, length_digitsOf]

theorem isHex_digitChar : ∀ digit < 16, isHex (digitChar digit) = true := by
  decide

theorem hexDecimal_digitChar : ∀ digit < 16, hexDecimal (digitChar digit) = some digit := by
  decide

theorem digitChar_ne_dash : ∀ digit < 16, digitChar digit ≠ ofChar '-' := by
  decide

theorem mem_hexText {count value : ℕ} {char : CodePoint} (hmem : char ∈ hexText count value) :
    ∃ digit < 16, digitChar digit = char := by
  obtain ⟨digit, hdigit, rfl⟩ := List.mem_map.mp hmem
  exact ⟨digit, digitsOf_lt (by decide) count value digit hdigit, rfl⟩

theorem accepts_hexText (count value : ℕ) :
    ((Pattern.one isHex).times count).accepts (hexText count value) = true := by
  have hlength : (hexText count value).length = count := by
    rw [hexText, List.length_map, length_digitsOf]
  have haccepts : ((Pattern.one isHex).times (hexText count value).length).accepts
      (hexText count value) = true := by
    apply Pattern.accepts_times
    intro char hmem
    obtain ⟨digit, hdigit, rfl⟩ := mem_hexText hmem
    exact isHex_digitChar digit hdigit
  rwa [hlength] at haccepts

theorem accepts_one {accepts : CodePoint → Bool} {char : CodePoint} (hchar : accepts char = true) :
    (Pattern.one accepts).accepts [char] = true := by
  rw [Pattern.accepts, Pattern.deriv, if_pos hchar]
  rfl

/-- The digit that says the version, and the one whose high bits say the variant. -/
theorem version_digits {uuid : ℕ} (hversion : isVersion4 uuid = true) :
    uuid / 16 ^ 19 % 16 = 4 ∧ 8 ≤ uuid / 16 ^ 15 % 16 ∧ uuid / 16 ^ 15 % 16 ≤ 11 := by
  rw [isVersion4, Bool.and_eq_true, decide_eq_true_eq, decide_eq_true_eq] at hversion
  have hvariant : uuid / 2 ^ 62 = uuid / 16 ^ 15 / 4 := by
    rw [Nat.div_div_eq_div_mul]
    norm_num
  have hpow : uuid / 2 ^ 76 = uuid / 16 ^ 19 := by norm_num
  rw [hvariant, hpow] at hversion
  omega

theorem hexText_succ (count value : ℕ) :
    hexText (1 + count) value =
      [digitChar (value / 16 ^ count % 16)] ++ hexText count value := by
  rw [hexText, digitsOf_add, List.map_append, ← hexText]
  rfl

/-- What `str` writes of a UUID of version 4 is what the API takes. -/
theorem uuidV4_accepts {uuid : ℕ} (hversion : isVersion4 uuid = true) :
    uuidV4.accepts (uuidText uuid) = true := by
  obtain ⟨hfour, hlow, hhigh⟩ := version_digits hversion
  have hthird : hexText 4 (uuid / 16 ^ 16) = [digitChar 4] ++ hexText 3 (uuid / 16 ^ 16) := by
    rw [hexText_succ 3, Nat.div_div_eq_div_mul, ← pow_add, hfour]
  have hfourth : hexText 4 (uuid / 16 ^ 12) =
      [digitChar (uuid / 16 ^ 15 % 16)] ++ hexText 3 (uuid / 16 ^ 12) := by
    rw [hexText_succ 3, Nat.div_div_eq_div_mul, ← pow_add]
  have hvariant : ∀ digit, 8 ≤ digit → digit ≤ 11 →
      (is '8' (digitChar digit) || is '9' (digitChar digit) || is 'a' (digitChar digit) ||
        is 'b' (digitChar digit)) = true := by
    intro digit hlow hhigh
    interval_cases digit <;> decide
  have hdash : (literal '-').accepts [ofChar '-'] = true := by decide
  rw [uuidText_eq, hthird, hfourth]
  simp only [List.append_assoc]
  rw [← List.append_nil (hexText 12 uuid)]
  apply Pattern.accepts_seq (accepts_hexText 8 _)
  apply Pattern.accepts_seq hdash
  apply Pattern.accepts_seq (accepts_hexText 4 _)
  apply Pattern.accepts_seq hdash
  apply Pattern.accepts_seq (by decide : (literal '4').accepts [digitChar 4] = true)
  apply Pattern.accepts_seq (accepts_hexText 3 _)
  apply Pattern.accepts_seq hdash
  apply Pattern.accepts_seq (accepts_one (hvariant _ hlow hhigh))
  apply Pattern.accepts_seq (accepts_hexText 3 _)
  apply Pattern.accepts_seq hdash
  exact Pattern.accepts_seq (accepts_hexText 12 _) rfl

/-- An identifier the CLI finds valid is one the API takes. -/
theorem uuid_taken {text : CodePoints} (huuid : isUuid4 text = true) :
    uuidV4.accepts text = true := by
  rw [isUuid4] at huuid
  cases hparse : parseUuid text with
  | none =>
      rw [hparse] at huuid
      cases huuid
  | some uuid =>
      rw [hparse, Bool.and_eq_true, decide_eq_true_eq] at huuid
      rw [← huuid.2]
      exact uuidV4_accepts huuid.1

theorem filter_uuidText (uuid : ℕ) :
    (uuidText uuid).filter (· ≠ ofChar '-') = hexText 32 uuid := by
  have hhex : ∀ count value, (hexText count value).filter (· ≠ ofChar '-') =
      hexText count value := by
    intro count value
    apply List.filter_eq_self.mpr
    intro char hmem
    obtain ⟨digit, hdigit, rfl⟩ := mem_hexText hmem
    exact decide_eq_true (digitChar_ne_dash digit hdigit)
  have hdash : [ofChar '-'].filter (· ≠ ofChar '-') = [] := by decide
  have hsplit : ∀ count more value, hexText count (value / 16 ^ more) ++ hexText more value =
      hexText (count + more) value := by
    intro count more value
    rw [hexText, hexText, hexText, ← List.map_append, ← digitsOf_add]
  rw [uuidText_eq]
  simp only [List.filter_append, hhex, hdash, List.append_nil]
  have hpow : ∀ more : ℕ, uuid / 16 ^ (more + 4) = uuid / 16 ^ more / 16 ^ 4 := by
    intro more
    rw [Nat.div_div_eq_div_mul, ← pow_add]
  rw [hpow 20, hsplit, hpow 16, hsplit, hpow 12, hsplit, hsplit]

theorem parseUuid_uuidText {uuid : ℕ} (hlt : uuid < 2 ^ 128) :
    parseUuid (uuidText uuid) = some uuid := by
  have hhex : ∀ char ∈ hexText 32 uuid, (hexDecimal char).isSome = true := by
    intro char hmem
    obtain ⟨digit, hdigit, rfl⟩ := mem_hexText hmem
    rw [hexDecimal_digitChar digit hdigit]
    rfl
  have hvalue : (hexText 32 uuid).foldl
      (fun value char => 16 * value + (hexDecimal char).getD 0) 0 = uuid := by
    rw [hexText, List.foldl_map]
    calc
      (digitsOf 16 32 uuid).foldl
          (fun value digit => 16 * value + (hexDecimal (digitChar digit)).getD 0) 0 =
        (digitsOf 16 32 uuid).foldl (fun value digit => 16 * value + digit) 0 := by
          apply List.foldl_ext
          intro value digit hmem
          rw [hexDecimal_digitChar digit (digitsOf_lt (by decide) 32 uuid digit hmem),
            Option.getD_some]
      _ = uuid % 16 ^ 32 := foldl_digitsOf 32 uuid
      _ = uuid := by
          apply Nat.mod_eq_of_lt
          calc
            uuid < 2 ^ 128 := hlt
            _ = 16 ^ 32 := by norm_num
  have hlength : (hexText 32 uuid).length = 32 := by
    rw [hexText, List.length_map, length_digitsOf]
  rw [parseUuid, filter_uuidText, if_pos ⟨hlength, List.all_eq_true.mpr hhex⟩, hvalue]

theorem isUuid4_uuidText {uuid : ℕ} (hlt : uuid < 2 ^ 128) (hversion : isVersion4 uuid = true) :
    isUuid4 (uuidText uuid) = true := by
  rw [isUuid4, parseUuid_uuidText hlt]
  exact Bool.and_eq_true_iff.mpr ⟨hversion, decide_eq_true rfl⟩

/-! ### Times both sides take -/

theorem asciiDigit_digitChar : ∀ digit < 10, asciiDigit (digitChar digit) = true := by
  decide

theorem asciiDecimal_digitChar : ∀ digit < 10, asciiDecimal (digitChar digit) = some digit := by
  decide

theorem length_padded (width value : ℕ) : (padded width value).length = width := by
  rw [padded, List.length_map, length_digitsOf]

theorem asciiDigit_of_mem_padded {width value : ℕ} {char : CodePoint}
    (hmem : char ∈ padded width value) : asciiDigit char = true := by
  obtain ⟨digit, hdigit, rfl⟩ := List.mem_map.mp hmem
  exact asciiDigit_digitChar digit (digitsOf_lt (by decide) width value digit hdigit)

theorem accepts_padded (width value : ℕ) :
    ((Pattern.one asciiDigit).times width).accepts (padded width value) = true := by
  have haccepts : ((Pattern.one asciiDigit).times (padded width value).length).accepts
      (padded width value) = true := by
    apply Pattern.accepts_times
    intro char hmem
    exact asciiDigit_of_mem_padded hmem
  rwa [length_padded] at haccepts

theorem number_padded {width value : ℕ} (hlt : value < 10 ^ width) :
    number asciiDecimal (padded width value) = value := by
  rw [number, padded, List.foldl_map]
  calc
    (digitsOf 10 width value).foldl
        (fun total digit => 10 * total + (asciiDecimal (digitChar digit)).getD 0) 0 =
      (digitsOf 10 width value).foldl (fun total digit => 10 * total + digit) 0 := by
        apply List.foldl_ext
        intro total digit hmem
        rw [asciiDecimal_digitChar digit (digitsOf_lt (by decide) width value digit hmem),
          Option.getD_some]
    _ = value % 10 ^ width := foldl_digitsOf width value
    _ = value := Nat.mod_eq_of_lt hlt

theorem daysIn_le (year month : ℕ) : daysIn year month ≤ 31 := by
  unfold daysIn
  split_ifs <;> omega

section Fields

variable {value : ℕ}

theorem accepts_month (hpos : 1 ≤ value) (hle : value ≤ 12) :
    monthField.accepts (padded 2 value) = true := by
  interval_cases value <;> decide

theorem accepts_day (hpos : 1 ≤ value) (hle : value ≤ 31) :
    (dayField asciiDigit).accepts (padded 2 value) = true := by
  interval_cases value <;> decide

theorem accepts_hour (hle : value ≤ 23) :
    (hourField asciiDigit).accepts (padded 2 value) = true := by
  interval_cases value <;> decide

theorem accepts_minute (hle : value ≤ 59) :
    (minuteField asciiDigit).accepts (padded 2 value) = true := by
  interval_cases value <;> decide

theorem accepts_second (hle : value ≤ 59) :
    (secondField asciiDigit).accepts (padded 2 value) = true := by
  interval_cases value <;> decide

end Fields

/-- The fields stand at fixed places. -/
theorem fieldsOf_append (decimal : CodePoint → Option ℕ)
    {year month day hour minute second : CodePoints} (hyear : year.length = 4)
    (hmonth : month.length = 2) (hday : day.length = 2)
    (hhour : hour.length = 2) (hminute : minute.length = 2) (hsecond : second.length = 2)
    (dash mark colon : CodePoint) (rest : CodePoints) :
    fieldsOf decimal (year ++ [dash] ++ month ++ [dash] ++ day ++ [mark] ++ hour ++ [colon] ++
      minute ++ [colon] ++ second ++ rest) =
      { year := number decimal year, month := number decimal month, day := number decimal day,
        hour := number decimal hour, minute := number decimal minute,
        second := number decimal second } := by
  obtain ⟨_, _, rfl⟩ := List.length_eq_two.mp hmonth
  obtain ⟨_, _, rfl⟩ := List.length_eq_two.mp hday
  obtain ⟨_, _, rfl⟩ := List.length_eq_two.mp hhour
  obtain ⟨_, _, rfl⟩ := List.length_eq_two.mp hminute
  obtain ⟨_, _, rfl⟩ := List.length_eq_two.mp hsecond
  match year, hyear with
  | [_, _, _, _], _ => rfl

/-- The time without its fraction. -/
def UtcTime.seconds (time : UtcTime) : CodePoints :=
  padded 4 time.fields.year ++ [ofChar '-'] ++ padded 2 time.fields.month ++ [ofChar '-'] ++
    padded 2 time.fields.day ++ [ofChar 'T'] ++ padded 2 time.fields.hour ++ [ofChar ':'] ++
    padded 2 time.fields.minute ++ [ofChar ':'] ++ padded 2 time.fields.second

theorem UtcTime.isoformat_eq (time : UtcTime) :
    time.isoformat = time.seconds ++
      ([ofChar '.'] ++ padded 3 (time.microsecond / 1000) ++ [ofChar 'Z']) := by
  simp only [isoformat, seconds, List.append_assoc]

theorem fieldsOf_isoformat (time : UtcTime) :
    fieldsOf asciiDecimal time.isoformat = time.fields := by
  have hvalid := time.valid
  have hdays := daysIn_le time.fields.year time.fields.month
  have hyear := time.year_le
  have htwo : ∀ value ≤ 59, number asciiDecimal (padded 2 value) = value := by
    intro value hle
    apply number_padded
    omega
  rw [UtcTime.isoformat_eq, UtcTime.seconds, fieldsOf_append asciiDecimal (length_padded 4 _)
    (length_padded 2 _) (length_padded 2 _) (length_padded 2 _) (length_padded 2 _)
    (length_padded 2 _), number_padded (by omega), htwo _ (by have := hvalid.month; omega),
    htwo _ (by have := hvalid.day; omega), htwo _ (by have := hvalid.hour; omega),
    htwo _ hvalid.minute, htwo _ hvalid.second]

theorem take_isoformat (time : UtcTime) : time.isoformat.take 19 = time.seconds := by
  have hlength : time.seconds.length = 19 := by
    simp only [UtcTime.seconds, List.length_append, length_padded, List.length_singleton]
  rw [UtcTime.isoformat_eq, List.take_left' hlength]

theorem accepts_literal (char : Char) : (literal char).accepts [ofChar char] = true := by
  apply accepts_one
  apply decide_eq_true
  exact Nat.mod_eq_of_lt (toNat_lt char)

theorem accepts_seconds (time : UtcTime) :
    (strptimeFormat asciiDigit).accepts time.seconds = true := by
  have hvalid := time.valid
  have hdays := daysIn_le time.fields.year time.fields.month
  rw [UtcTime.seconds, ← List.append_nil (padded 2 time.fields.second)]
  simp only [List.append_assoc]
  apply Pattern.accepts_seq (accepts_padded 4 _)
  apply Pattern.accepts_seq (accepts_literal '-')
  apply Pattern.accepts_seq (accepts_month hvalid.month.1 hvalid.month.2)
  apply Pattern.accepts_seq (accepts_literal '-')
  apply Pattern.accepts_seq (accepts_day hvalid.day.1 (hvalid.day.2.trans hdays))
  apply Pattern.accepts_seq (accepts_literal 'T')
  apply Pattern.accepts_seq (accepts_hour hvalid.hour)
  apply Pattern.accepts_seq (accepts_literal ':')
  apply Pattern.accepts_seq (accepts_minute hvalid.minute)
  apply Pattern.accepts_seq (accepts_literal ':')
  exact Pattern.accepts_seq (accepts_second hvalid.second) rfl

theorem accepts_isoformat (time : UtcTime) :
    (utcTimestamp asciiDigit).accepts time.isoformat = true := by
  have hfraction : (Pattern.optional (.seq (literal '.') (.upTo (.one asciiDigit) 8))).accepts
      ([ofChar '.'] ++ padded 3 (time.microsecond / 1000)) = true := by
    apply Pattern.accepts_optional
    apply Pattern.accepts_seq (accepts_literal '.')
    apply Pattern.accepts_upTo
    · rw [length_padded]
      decide
    · rw [length_padded]
      decide
    · intro char hmem
      exact asciiDigit_of_mem_padded hmem
  rw [UtcTime.isoformat, ← List.append_nil [ofChar 'Z']]
  simp only [List.append_assoc]
  apply Pattern.accepts_seq (accepts_padded 4 _)
  apply Pattern.accepts_seq (accepts_literal '-')
  apply Pattern.accepts_seq (accepts_padded 2 _)
  apply Pattern.accepts_seq (accepts_literal '-')
  apply Pattern.accepts_seq (accepts_padded 2 _)
  apply Pattern.accepts_seq (accepts_literal 'T')
  apply Pattern.accepts_seq (accepts_padded 2 _)
  apply Pattern.accepts_seq (accepts_literal ':')
  apply Pattern.accepts_seq (accepts_padded 2 _)
  apply Pattern.accepts_seq (accepts_literal ':')
  apply Pattern.accepts_seq (accepts_padded 2 _)
  rw [← List.append_assoc]
  exact Pattern.accepts_seq hfraction (Pattern.accepts_seq (accepts_literal 'Z') rfl)

theorem plain_isoformat (unicode : UnicodeData) (time : UtcTime) : Plain time.isoformat :=
  plain_of_accepts (restrict_utcTimestamp unicode) (within_utcTimestamp unicode)
    (accepts_isoformat time)

/-- The time of an event that is built is one the CLI finds valid. -/
theorem isUtcTimestamp_isoformat (unicode : UnicodeData) (time : UtcTime) :
    isUtcTimestamp unicode time.isoformat = true := by
  have hplain := plain_isoformat unicode time
  have hascii : ∀ char ∈ time.isoformat, isAscii char = true := fun char hmem =>
    (hplain char hmem).1
  rw [isUtcTimestamp, Bool.and_eq_true]
  constructor
  · rw [pyMatch, ((accepts_asciiDigit (restrict_utcTimestamp unicode) _).mp
      (accepts_isoformat time)).1, Bool.true_or]
  · rw [strptime, Bool.and_eq_true, decide_eq_true_eq, fieldsOf_take, fieldsOf_congr hascii,
      fieldsOf_isoformat, take_isoformat]
    refine ⟨?_, time.year_pos, time.valid⟩
    exact ((accepts_asciiDigit (restrict_strptimeFormat unicode) _).mp (accepts_seconds time)).1

/-! ### Events both sides take -/

/-- The time and the version of the event are plain. -/
def isPlainEvent : JsonValue → Bool
  | .dict items =>
      strAnd (fun text => decide (Plain text)) (field items "occurred_at") &&
        strAnd (fun text => decide (Plain text)) (field items "cli_version")
  | _ => false

theorem exists_str_of_strAnd {check : CodePoints → Bool} {value : JsonValue}
    (hcheck : strAnd check value = true) : ∃ text, value = .str text ∧ check text = true := by
  cases value with
  | str text => exact ⟨text, rfl, hcheck⟩
  | _ => cases hcheck

theorem isReported_eq_true {value : JsonValue} (hreported : isReported value = some true) :
    strAnd (fun text => decide (text ∈ reportedCommands)) value = true := by
  cases value with
  | str text => exact Option.some.inj hreported
  | _ => cases hreported

/-- What the CLI's check says of an event it finds valid. -/
theorem valid_event {unicode : UnicodeData} {event : JsonValue}
    (hvalid : isValidEvent unicode event = some true) :
    ∃ items eventId installationId occurredAt cliVersion, event = .dict items ∧
      hasEventKeys items = true ∧
      field items "event_id" = .str eventId ∧ isUuid4 eventId = true ∧
      field items "installation_id" = .str installationId ∧ isUuid4 installationId = true ∧
      strAnd (fun text => decide (text ∈ reportedCommands)) (field items "command") = true ∧
      isBool (field items "succeeded") = true ∧
      field items "occurred_at" = .str occurredAt ∧ isUtcTimestamp unicode occurredAt = true ∧
      field items "cli_version" = .str cliVersion ∧
      isReportableVersion unicode cliVersion = true := by
  cases event with
  | dict items =>
      rw [isValidEvent] at hvalid
      split_ifs at hvalid with hids
      · obtain ⟨reported, hreported, hrest⟩ := Option.map_eq_some_iff.mp hvalid
        simp only [Bool.and_eq_true] at hids hrest
        obtain ⟨⟨hkeys, hevent⟩, hinstallation⟩ := hids
        obtain ⟨⟨⟨rfl, hsucceeded⟩, htime⟩, hversion⟩ := hrest
        obtain ⟨eventId, heventId, hevent⟩ := exists_str_of_strAnd hevent
        obtain ⟨installationId, hinstallationId, hinstallation⟩ :=
          exists_str_of_strAnd hinstallation
        obtain ⟨occurredAt, hoccurredAt, htime⟩ := exists_str_of_strAnd htime
        obtain ⟨cliVersion, hcliVersion, hversion⟩ := exists_str_of_strAnd hversion
        exact ⟨items, eventId, installationId, occurredAt, cliVersion, rfl, hkeys, heventId,
          hevent, hinstallationId, hinstallation, isReported_eq_true hreported, hsucceeded,
          hoccurredAt, htime, hcliVersion, hversion⟩
      · cases hvalid
  | _ => cases hvalid

/-- An event the CLI finds valid is one the API takes just if it is plain. -/
theorem event_taken_iff {unicode : UnicodeData} {datetime : CodePoints → Bool}
    (hzod : ZodDatetime datetime) {event : JsonValue}
    (hvalid : isValidEvent unicode event = some true) :
    usageEventSchema datetime event = true ↔ isPlainEvent event = true := by
  obtain ⟨items, eventId, installationId, occurredAt, cliVersion, rfl, hkeys, heventId, hevent,
    hinstallationId, hinstallation, hcommand, hsucceeded, hoccurredAt, htime, hcliVersion,
    hversion⟩ := valid_event hvalid
  have hplain : isPlainEvent (.dict items) = true ↔ Plain occurredAt ∧ Plain cliVersion := by
    rw [isPlainEvent, hoccurredAt, hcliVersion, strAnd, strAnd, Bool.and_eq_true,
      decide_eq_true_eq, decide_eq_true_eq]
  rw [hplain, usageEventSchema, hkeys, heventId, hinstallationId, hcommand, hsucceeded,
    hoccurredAt, hcliVersion, strAnd, strAnd, strAnd, strAnd, uuid_taken hevent,
    uuid_taken hinstallation]
  rw [Bool.true_and, Bool.true_and, Bool.true_and, Bool.true_and, Bool.true_and, Bool.and_eq_true,
    time_taken_iff hzod htime, version_taken_iff hversion]

/-! ### Events that are built -/

/-- The fields of an event as they are written. -/
theorem fields_of_event (eventId installationId command succeeded occurredAt version : JsonValue) :
    let items := [(ofString "event_id", eventId), (ofString "installation_id", installationId),
      (ofString "command", command), (ofString "succeeded", succeeded),
      (ofString "occurred_at", occurredAt), (ofString "cli_version", version)]
    hasEventKeys items = true ∧ field items "event_id" = eventId ∧
      field items "installation_id" = installationId ∧ field items "command" = command ∧
      field items "succeeded" = succeeded ∧ field items "occurred_at" = occurredAt ∧
      field items "cli_version" = version := by
  simp [hasEventKeys, eventKeys, field, JsonValue.get, ofString_inj]

theorem isValidEvent_of_fields {unicode : UnicodeData}
    {eventId installationId command occurredAt version : CodePoints} (succeeded : Bool)
    (hevent : isUuid4 eventId = true) (hinstallation : isUuid4 installationId = true)
    (hcommand : command ∈ reportedCommands) (htime : isUtcTimestamp unicode occurredAt = true)
    (hversion : isReportableVersion unicode version = true) :
    isValidEvent unicode (.dict [(ofString "event_id", .str eventId),
      (ofString "installation_id", .str installationId), (ofString "command", .str command),
      (ofString "succeeded", .bool succeeded), (ofString "occurred_at", .str occurredAt),
      (ofString "cli_version", .str version)]) = some true := by
  obtain ⟨hkeys, heventId, hinstallationId, hcommandText, hsucceeded, htimeText, hversionText⟩ :=
    fields_of_event (.str eventId) (.str installationId) (.str command) (.bool succeeded)
      (.str occurredAt) (.str version)
  rw [isValidEvent, hkeys, heventId, hinstallationId, hcommandText, hsucceeded, htimeText,
    hversionText, strAnd, strAnd, strAnd, strAnd, hevent, hinstallation, htime, hversion,
    isReported, decide_eq_true hcommand]
  rfl

theorem isPlainEvent_of_fields (eventId installationId command succeeded : JsonValue)
    (occurredAt version : CodePoints) :
    isPlainEvent (.dict [(ofString "event_id", eventId),
      (ofString "installation_id", installationId), (ofString "command", command),
      (ofString "succeeded", succeeded), (ofString "occurred_at", .str occurredAt),
      (ofString "cli_version", .str version)]) = true ↔ Plain occurredAt ∧ Plain version := by
  obtain ⟨_, _, _, _, _, htime, hversion⟩ :=
    fields_of_event eventId installationId command succeeded (.str occurredAt) (.str version)
  rw [isPlainEvent, htime, hversion, strAnd, strAnd, Bool.and_eq_true, decide_eq_true_eq,
    decide_eq_true_eq]

theorem isValidEvent_buildEvent {unicode : UnicodeData} {run : Run}
    (hreportable : run.Reportable unicode) :
    isValidEvent unicode run.buildEvent = some true :=
  isValidEvent_of_fields run.succeeded
    (isUuid4_uuidText hreportable.uuid.1 hreportable.uuid.2) hreportable.installationId
    hreportable.command (isUtcTimestamp_isoformat unicode run.occurredAt) hreportable.version

/-- The event that is built is plain but for its version. -/
theorem isPlainEvent_buildEvent (unicode : UnicodeData) (run : Run) :
    isPlainEvent run.buildEvent = true ↔ Plain run.version := by
  rw [Run.buildEvent, isPlainEvent_of_fields]
  exact and_iff_right (plain_isoformat unicode run.occurredAt)

end CanyonOS.Usage
