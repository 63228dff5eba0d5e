import Mathlib
import CanyonOS.Controller.Governance

/-!
# Reading the times that are written

`datetime.fromisoformat` over the grammar it documents for all versions the package supports, and
that it reads back what `isoformat` writes: the calendar and the clock are taken apart and put
together again.
-/

namespace CanyonOS.IsoTime

open CodePoints Governance

/-! ### The calendar -/

def isLeap (year : ℕ) : Prop :=
  year % 4 = 0 ∧ (year % 100 ≠ 0 ∨ year % 400 = 0)

instance : DecidablePred isLeap := fun year =>
  inferInstanceAs (Decidable (year % 4 = 0 ∧ (year % 100 ≠ 0 ∨ year % 400 = 0)))

def daysBeforeYear (year : ℕ) : ℕ :=
  (year - 1) * 365 + (year - 1) / 4 - (year - 1) / 100 + (year - 1) / 400

/-- Days of the year before its month, in a leap year or another one. -/
def daysBefore (leap : Bool) (month : ℕ) : ℕ :=
  daysBeforeMonth.getD (month - 1) 0 + if 2 < month ∧ leap = true then 1 else 0

def daysInMonth (leap : Bool) (month : ℕ) : ℕ :=
  if month = 2 then if leap = true then 29 else 28
  else if month = 4 ∨ month = 6 ∨ month = 9 ∨ month = 11 then 30
  else 31

def IsDate (year month day : ℕ) : Prop :=
  1 ≤ year ∧ 1 ≤ month ∧ month ≤ 12 ∧ 1 ≤ day ∧ day ≤ daysInMonth (isLeap year) month

instance (year month day : ℕ) : Decidable (IsDate year month day) :=
  inferInstanceAs (Decidable (_ ∧ _ ∧ _ ∧ _ ∧ _))

/-- The day counted from the first of year 1. -/
def ordinal (year month day : ℕ) : ℕ :=
  daysBeforeYear year + daysBefore (isLeap year) month + (day - 1)

/-- Month and day of a day of a year that is not its 366th. -/
def monthAndDay (leap : Bool) (inYear : ℕ) : ℕ × ℕ :=
  let estimate := (inYear + 50) / 32
  let month := if inYear < daysBefore leap estimate then estimate - 1 else estimate
  (month, inYear - daysBefore leap month + 1)

theorem monthAndDay_spec : ∀ leap : Bool, ∀ inYear < 365,
    daysBefore leap (monthAndDay leap inYear).1 + ((monthAndDay leap inYear).2 - 1) = inYear ∧
      1 ≤ (monthAndDay leap inYear).1 ∧ (monthAndDay leap inYear).1 ≤ 12 ∧
      1 ≤ (monthAndDay leap inYear).2 ∧
      (monthAndDay leap inYear).2 ≤ daysInMonth leap (monthAndDay leap inYear).1 := by
  decide +kernel

/-- The day taken apart: 400 years, 100, 4 and one. -/
theorem civil_eq (day : ℕ) :
    civil day =
      let century := day % 146097 / 36524
      let cycle := day % 146097 % 36524 / 1461
      let yearInCycle := day % 146097 % 36524 % 1461 / 365
      let year := day / 146097 * 400 + 1 + century * 100 + cycle * 4 + yearInCycle
      if yearInCycle = 4 ∨ century = 4 then (year - 1, 12, 31)
      else
        (year, monthAndDay (yearInCycle = 3 ∧ (cycle ≠ 24 ∨ century = 3))
          (day % 146097 % 36524 % 1461 % 365)) := by
  unfold civil monthAndDay daysBefore
  simp only [decide_eq_true_eq]

/-- The last day of a leap year, and of a cycle of 400 years. -/
theorem ordinal_lastDay {year : ℕ} (hleap : isLeap year) :
    ordinal year 12 31 = daysBeforeYear year + 365 := by
  have hbefore : daysBefore (isLeap year) 12 = 335 := by
    rw [decide_eq_true hleap]
    rfl
  rw [ordinal, hbefore]

/-- The parts of a day, with what their sizes say of each other. -/
structure Parts (day era century cycle yearInCycle inYear : ℕ) : Prop where
  sum : day = 146097 * era + 36524 * century + 1461 * cycle + 365 * yearInCycle + inYear
  century_le : century ≤ 4
  century_last : century = 4 → cycle = 0 ∧ yearInCycle = 0 ∧ inYear = 0
  cycle_le : cycle ≤ 24
  cycle_last : cycle = 24 → yearInCycle ≤ 3
  yearInCycle_le : yearInCycle ≤ 4
  yearInCycle_last : yearInCycle = 4 → inYear = 0
  inYear_lt : inYear < 365

theorem parts (day : ℕ) :
    Parts day (day / 146097) (day % 146097 / 36524) (day % 146097 % 36524 / 1461)
      (day % 146097 % 36524 % 1461 / 365) (day % 146097 % 36524 % 1461 % 365) := by
  constructor <;> omega

section Parts

variable {day era century cycle yearInCycle inYear : ℕ}

/-- The year before the last day of a leap year is over. -/
theorem Parts.lastDay (hparts : Parts day era century cycle yearInCycle inYear)
    (hlast : yearInCycle = 4 ∨ century = 4) :
    let year := era * 400 + century * 100 + cycle * 4 + yearInCycle
    isLeap year ∧ 1 ≤ year ∧ daysBeforeYear year + 365 = day := by
  obtain ⟨hsum, hle, hcentury, hcycle, hlastCycle, -, hyear, -⟩ := hparts
  unfold isLeap daysBeforeYear
  rcases hlast with rfl | rfl
  · have hzero := hyear rfl
    have hlt : century ≤ 3 := by omega
    omega
  · obtain ⟨rfl, rfl, rfl⟩ := hcentury rfl
    omega

theorem Parts.year (hparts : Parts day era century cycle yearInCycle inYear)
    (hother : ¬ (yearInCycle = 4 ∨ century = 4)) :
    let year := era * 400 + 1 + century * 100 + cycle * 4 + yearInCycle
    (isLeap year ↔ yearInCycle = 3 ∧ (cycle ≠ 24 ∨ century = 3)) ∧
      daysBeforeYear year + inYear = day := by
  obtain ⟨hsum, hcentury, -, hcycle, -, hle, -, -⟩ := hparts
  have hcenturyLt : century ≤ 3 := by omega
  have hyearLt : yearInCycle ≤ 3 := by omega
  unfold isLeap daysBeforeYear
  constructor
  · omega
  · omega

end Parts

/-- A day's date is one of the calendar, and counts up to the day. -/
theorem civil_spec (day : ℕ) :
    IsDate (civil day).1 (civil day).2.1 (civil day).2.2 ∧
      ordinal (civil day).1 (civil day).2.1 (civil day).2.2 = day := by
  have hparts := parts day
  rw [civil_eq]
  dsimp only
  generalize day / 146097 = era at *
  generalize day % 146097 / 36524 = century at *
  generalize day % 146097 % 36524 / 1461 = cycle at *
  generalize day % 146097 % 36524 % 1461 % 365 = inYear at *
  generalize day % 146097 % 36524 % 1461 / 365 = yearInCycle at *
  split_ifs with hlast
  · have hyear : era * 400 + 1 + century * 100 + cycle * 4 + yearInCycle - 1 =
        era * 400 + century * 100 + cycle * 4 + yearInCycle := by
      omega
    obtain ⟨hleap, hpos, hday⟩ := hparts.lastDay hlast
    rw [hyear, ordinal_lastDay hleap]
    exact ⟨⟨hpos, by simp, by simp, by simp, by simp [daysInMonth]⟩, hday⟩
  · obtain ⟨hleap, hday⟩ := hparts.year hlast
    rw [IsDate, ordinal, decide_eq_decide.mpr hleap]
    generalize decide (yearInCycle = 3 ∧ (cycle ≠ 24 ∨ century = 3)) = leap
    obtain ⟨hsum, hmonth, hmonthLe, hpos, hle⟩ := monthAndDay_spec leap inYear hparts.inYear_lt
    refine ⟨⟨by omega, hmonth, hmonthLe, hpos, hle⟩, ?_⟩
    rw [← hday, Nat.add_assoc, hsum]

/-! ### The text -/

def decimal (codePoint : CodePoint) : Option ℕ :=
  if 48 ≤ codePoint.val ∧ codePoint.val ≤ 57 then some (codePoint.val - 48) else none

/-- A number of so many digits, after the value so far. -/
def readNumber : ℕ → ℕ → CodePoints → Option (ℕ × CodePoints)
  | 0, value, text => some (value, text)
  | width + 1, value, codePoint :: text =>
      (decimal codePoint).bind fun digit => readNumber width (10 * value + digit) text
  | _ + 1, _, [] => none

def readMark (mark : Char) : CodePoints → Option CodePoints
  | codePoint :: text => if codePoint = ofChar mark then some text else none
  | [] => none

def readDate (text : CodePoints) : Option (ℕ × CodePoints) := do
  let (year, text) ← readNumber 4 0 text
  let text ← readMark '-' text
  let (month, text) ← readNumber 2 0 text
  let text ← readMark '-' text
  let (day, text) ← readNumber 2 0 text
  if IsDate year month day then some (ordinal year month day, text) else none

/-- `.fff` or `.ffffff`, in microseconds. -/
def readFraction (text : CodePoints) : Option (ℕ × CodePoints) :=
  match readMark '.' text with
  | none => some (0, text)
  | some text =>
      (readNumber 6 0 text).or
        ((readNumber 3 0 text).map fun (milliseconds, text) => (milliseconds * 1000, text))

def readSeconds (text : CodePoints) : Option (ℕ × CodePoints) :=
  match readMark ':' text with
  | none => some (0, text)
  | some text => do
      let (seconds, text) ← readNumber 2 0 text
      let (fraction, text) ← readFraction text
      if seconds < 60 then some (seconds * 1000000 + fraction, text) else none

def readMinutes (text : CodePoints) : Option (ℕ × CodePoints) :=
  match readMark ':' text with
  | none => some (0, text)
  | some text => do
      let (minutes, text) ← readNumber 2 0 text
      let (rest, text) ← readSeconds text
      if minutes < 60 then some (minutes * 60000000 + rest, text) else none

/-- `HH[:MM[:SS[.fff[fff]]]]` -/
def readTime (text : CodePoints) : Option (ℕ × CodePoints) := do
  let (hours, text) ← readNumber 2 0 text
  let (rest, text) ← readMinutes text
  if hours < 24 then some (hours * 3600000000 + rest, text) else none

/-- `HH:MM[:SS[.ffffff]]`, to the end of the text. -/
def readOffset (text : CodePoints) : Option Int :=
  if text.length = 5 ∨ text.length = 8 ∨ text.length = 15 then
    (readTime text).bind fun (offset, rest) => if rest = [] then some offset else none
  else none

/-- The offset with its sign; nothing at the end of the text. -/
def readZone (text : CodePoints) : Option (Option Int) :=
  match readMark '+' text, readMark '-' text with
  | some text, _ => (readOffset text).map some
  | none, some text => (readOffset text).map fun offset => some (-offset)
  | none, none => if text = [] then some none else none

def ofClock (clock : ℕ) (offset : Option Int) : Option Datetime :=
  if hlt : clock < timeLimit then some { clock, offset, clock_lt := hlt } else none

/-- A date, and behind any character a time with or without its offset from UTC. -/
def fromisoformat (text : CodePoints) : Option Datetime :=
  (readDate text).bind fun (day, rest) =>
    if rest.length ≤ 1 then ofClock (day * dayLength) none
    else
      (readTime (rest.drop 1)).bind fun (time, rest) =>
        (readZone rest).bind fun offset => ofClock (day * dayLength + time) offset

/-! ### Reading what is written -/

theorem decimal_ofChar {char : Char} (hdigit : char.isDigit = true) :
    decimal (ofChar char) = some (char.toNat - 48) := by
  have hrange : 48 ≤ char.toNat ∧ char.toNat ≤ 57 := by
    simpa [Char.isDigit, UInt32.le_iff_toNat_le] using hdigit
  have hvalue : (ofChar char : ℕ) = char.toNat := Nat.mod_eq_of_lt (toNat_lt char)
  rw [decimal, hvalue, if_pos hrange]

/-- The digits are read one by one, and reading goes on with what is left to read. -/
theorem readNumber_append {chars : List Char} (hdigits : ∀ char ∈ chars, char.isDigit = true)
    (more value : ℕ) (rest : CodePoints) :
    readNumber (chars.length + more) value (chars.map ofChar ++ rest) =
      readNumber more (Nat.ofDigitChars 10 chars value) rest := by
  induction chars generalizing value with
  | nil => rw [List.length_nil, Nat.zero_add, List.map_nil, List.nil_append, Nat.ofDigitChars_nil]
  | cons char chars ih =>
      obtain ⟨hfirst, hrest⟩ := List.forall_mem_cons.mp hdigits
      rw [List.length_cons, Nat.add_right_comm, List.map_cons, List.cons_append, readNumber,
        decimal_ofChar hfirst, Option.bind_some, ih hrest, Nat.ofDigitChars_cons]
      rfl

theorem length_digits {width value : ℕ} (hwidth : 0 < width) (hlt : value < 10 ^ width) :
    (digits width value).length = width := by
  have hle := (Nat.length_toDigits_le_iff (by decide) hwidth).mpr hlt
  rw [digits, List.leftpad, List.length_append, List.length_replicate]
  omega

theorem isDigit_of_mem_digits {width value : ℕ} {char : Char} (hmem : char ∈ digits width value) :
    char.isDigit = true := by
  rw [digits, List.leftpad] at hmem
  rcases List.mem_append.mp hmem with hzero | hdigit
  · rw [List.eq_of_mem_replicate hzero]
    rfl
  · exact Nat.isDigit_of_mem_toDigits (by decide) (by decide) hdigit

theorem readNumber_digits {width value : ℕ} (hwidth : 0 < width) (hlt : value < 10 ^ width)
    (rest : CodePoints) :
    readNumber width 0 ((digits width value).map ofChar ++ rest) = some (value, rest) := by
  have hread : readNumber ((digits width value).length + 0) 0
      ((digits width value).map ofChar ++ rest) =
        readNumber 0 (Nat.ofDigitChars 10 (digits width value) 0) rest :=
    readNumber_append (fun _ hmem => isDigit_of_mem_digits hmem) 0 0 rest
  rw [length_digits hwidth hlt, Nat.add_zero] at hread
  rw [hread, readNumber, digits, List.leftpad, Nat.ofDigitChars_append,
    Nat.ofDigitChars_replicate_zero, Nat.mul_zero, Nat.ofDigitChars_ten_toDigits]

@[simp]
theorem readMark_cons (mark : Char) (rest : CodePoints) :
    readMark mark (ofChar mark :: rest) = some rest :=
  if_pos rfl

/-- The year of a day before the end of year 9999 has four digits. -/
theorem year_lt {day : ℕ} (hday : day < 3652059) : (civil day).1 < 10000 := by
  obtain ⟨hdate, hordinal⟩ := civil_spec day
  by_contra hyear
  have hlate : daysBeforeYear 10000 ≤ daysBeforeYear (civil day).1 := by
    unfold daysBeforeYear
    omega
  rw [ordinal] at hordinal
  have htotal : daysBeforeYear 10000 = 3652059 := by decide
  omega

theorem daysInMonth_le (leap : Bool) (month : ℕ) : daysInMonth leap month ≤ 31 := by
  unfold daysInMonth
  split_ifs <;> omega

theorem readDate_civil {day : ℕ} (hday : day < 3652059) (rest : CodePoints) :
    readDate ((digits 4 (civil day).1 ++ ['-'] ++ digits 2 (civil day).2.1 ++ ['-'] ++
      digits 2 (civil day).2.2).map ofChar ++ rest) = some (day, rest) := by
  obtain ⟨hdate, hordinal⟩ := civil_spec day
  have hyear : (civil day).1 < 10 ^ 4 := year_lt hday
  have hmonth : (civil day).2.1 < 10 ^ 2 := by
    have := hdate.2.2.1
    omega
  have hinMonth : (civil day).2.2 < 10 ^ 2 := by
    have hle := hdate.2.2.2.2
    have := daysInMonth_le (isLeap (civil day).1) (civil day).2.1
    omega
  simp only [List.map_append, List.append_assoc, readDate, readNumber_digits (by decide) hyear,
    readNumber_digits (by decide) hmonth, readNumber_digits (by decide) hinMonth, List.map_cons,
    List.cons_append, List.nil_append, readMark_cons, Option.bind_eq_bind,
    Option.bind_some, if_pos hdate, hordinal]

/-- The clock's text, from the hour to the milliseconds. -/
def timeText (millisecond : ℕ) : List Char :=
  digits 2 (millisecond / 3600000) ++ [':'] ++ digits 2 (millisecond / 60000 % 60) ++ [':'] ++
    digits 2 (millisecond / 1000 % 60) ++ ['.'] ++ digits 3 (millisecond % 1000)

/-- The fraction ends where the offset begins. -/
theorem readFraction_milliseconds {value : ℕ} (hlt : value < 1000) (rest : CodePoints) :
    readFraction (ofChar '.' :: ((digits 3 value).map ofChar ++ ofChar '+' :: rest)) =
      some (value * 1000, ofChar '+' :: rest) := by
  have hthree : readNumber 3 0 ((digits 3 value).map ofChar ++ ofChar '+' :: rest) =
      some (value, ofChar '+' :: rest) := readNumber_digits (by decide) hlt _
  have hsix : readNumber 6 0 ((digits 3 value).map ofChar ++ ofChar '+' :: rest) = none := by
    have hread : readNumber ((digits 3 value).length + 3) 0
        ((digits 3 value).map ofChar ++ ofChar '+' :: rest) =
          readNumber 3 (Nat.ofDigitChars 10 (digits 3 value) 0) (ofChar '+' :: rest) :=
      readNumber_append (fun _ hmem => isDigit_of_mem_digits hmem) 3 0 _
    rw [length_digits (by decide) hlt] at hread
    rw [hread, readNumber, show decimal (ofChar '+') = none from by decide, Option.bind_none]
  rw [readFraction, readMark_cons]
  simp [hsix, hthree]

theorem readTime_timeText {millisecond : ℕ} (hlt : millisecond < 86400000) (rest : CodePoints) :
    readTime ((timeText millisecond).map ofChar ++ ofChar '+' :: rest) =
      some (millisecond * 1000, ofChar '+' :: rest) := by
  have hhour : millisecond / 3600000 < 10 ^ 2 := by omega
  have hminute : millisecond / 60000 % 60 < 10 ^ 2 := by omega
  have hsecond : millisecond / 1000 % 60 < 10 ^ 2 := by omega
  have hday : millisecond / 3600000 < 24 := by omega
  have hhours : millisecond / 60000 % 60 < 60 := by omega
  have hminutes : millisecond / 1000 % 60 < 60 := by omega
  have hmilliseconds : millisecond % 1000 < 1000 := by omega
  simp only [timeText, List.map_append, List.append_assoc, List.map_cons,
    List.cons_append, List.nil_append, readTime, readMinutes, readSeconds, readMark_cons,
    readNumber_digits (by decide) hhour, readNumber_digits (by decide) hminute,
    readNumber_digits (by decide) hsecond, readFraction_milliseconds hmilliseconds,
    Option.bind_eq_bind, Option.bind_some, if_pos hday, if_pos hhours, if_pos hminutes]
  rw [show millisecond / 3600000 * 3600000000 + (millisecond / 60000 % 60 * 60000000 +
    (millisecond / 1000 % 60 * 1000000 + millisecond % 1000 * 1000)) = millisecond * 1000 by omega]

theorem readZone_utc : readZone (ofString "+00:00") = some (some 0) := by
  decide +kernel

theorem replaceZ_append (first second : CodePoints) :
    replaceZ (first ++ second) = replaceZ first ++ replaceZ second :=
  List.flatMap_append

theorem replaceZ_of_ne {text : CodePoints} (hne : ∀ char ∈ text, char ≠ ofChar 'Z') :
    replaceZ text = text := by
  induction text with
  | nil => rfl
  | cons char text ih =>
      obtain ⟨hfirst, hrest⟩ := List.forall_mem_cons.mp hne
      rw [replaceZ, List.flatMap_cons, if_neg hfirst]
      exact congrArg (char :: ·) (ih hrest)

/-- What `isoformat` writes, without its last character. -/
def body (clock : ℕ) : List Char :=
  digits 4 (civil (clock / dayLength)).1 ++ ['-'] ++ digits 2 (civil (clock / dayLength)).2.1 ++
    ['-'] ++ digits 2 (civil (clock / dayLength)).2.2 ++ ['T'] ++
    timeText (clock % dayLength / 1000)

theorem isoformat_eq (clock : ℕ) : isoformat clock = (body clock ++ ['Z']).map ofChar := by
  simp only [isoformat, body, timeText, List.append_assoc]

/-- The characters of the text are digits and the marks between them. -/
theorem ofChar_ne_z {chars : List Char}
    (hchars : ∀ char ∈ chars, char.isDigit = true ∨ char ∈ ['-', 'T', ':', '.']) :
    ∀ codePoint ∈ chars.map ofChar, codePoint ≠ ofChar 'Z' := by
  intro codePoint hmem heq
  obtain ⟨char, hchar, rfl⟩ := List.mem_map.mp hmem
  have hz : char = 'Z' := by
    have hsame := congrArg toChar? heq
    simpa using hsame
  subst hz
  rcases hchars _ hchar with hdigit | hmark
  · cases hdigit
  · simp at hmark

theorem mem_body {clock : ℕ} {char : Char} (hmem : char ∈ body clock) :
    char.isDigit = true ∨ char ∈ ['-', 'T', ':', '.'] := by
  simp only [body, timeText, List.mem_append, List.mem_cons] at hmem ⊢
  have hdigits : ∀ width value, char ∈ digits width value → char.isDigit = true :=
    fun _ _ hdigit => isDigit_of_mem_digits hdigit
  grind

theorem replaceZ_isoformat (clock : ℕ) :
    replaceZ (isoformat clock) = (body clock).map ofChar ++ ofString "+00:00" := by
  rw [isoformat_eq, List.map_append, replaceZ_append,
    replaceZ_of_ne (ofChar_ne_z fun char hmem => mem_body hmem)]
  rfl

/-- The time that `isoformat` writes, to the millisecond. -/
def truncate (clock : ℕ) : ℕ :=
  clock / 1000 * 1000

theorem truncate_lt {clock : ℕ} (hlt : clock < timeLimit) : truncate clock < timeLimit :=
  (Nat.div_mul_le_self clock 1000).trans_lt hlt

/-- `fromisoformat` reads back what `isoformat` writes. -/
theorem fromisoformat_isoformat {clock : ℕ} (hlt : clock < timeLimit) :
    fromisoformat (replaceZ (isoformat clock)) =
      some { clock := truncate clock, offset := some 0, clock_lt := truncate_lt hlt } := by
  have hday : clock / dayLength < 3652059 := Nat.div_lt_of_lt_mul (by rwa [Nat.mul_comm])
  have hmillisecond : clock % dayLength / 1000 < 86400000 := by
    have hmod : clock % dayLength < dayLength := Nat.mod_lt _ (by decide)
    unfold dayLength at hmod ⊢
    omega
  have htext : (body clock).map ofChar ++ ofString "+00:00" =
      (digits 4 (civil (clock / dayLength)).1 ++ ['-'] ++ digits 2 (civil (clock / dayLength)).2.1 ++
        ['-'] ++ digits 2 (civil (clock / dayLength)).2.2).map ofChar ++
        ofChar 'T' :: ((timeText (clock % dayLength / 1000)).map ofChar ++
          ofChar '+' :: ofString "00:00") := by
    rw [body, List.map_append, List.map_append, List.append_assoc, List.append_assoc]
    rfl
  have hlong : ¬ (ofChar 'T' :: ((timeText (clock % dayLength / 1000)).map ofChar ++
      ofChar '+' :: ofString "00:00")).length ≤ 1 := by
    simp
  have hclock : clock / dayLength * dayLength + clock % dayLength / 1000 * 1000 =
      truncate clock := by
    unfold truncate dayLength
    omega
  have htruncated := truncate_lt hlt
  rw [← hclock] at htruncated
  rw [replaceZ_isoformat, fromisoformat, htext, readDate_civil hday, Option.bind_some]
  dsimp only
  rw [if_neg hlong, List.drop_one, List.tail_cons, readTime_timeText hmillisecond,
    Option.bind_some]
  dsimp only
  rw [show readZone (ofChar '+' :: ofString "00:00") = some (some 0) from readZone_utc,
    Option.bind_some, ofClock, dif_pos htruncated]
  simp only [hclock]

theorem isoformat_truncate (clock : ℕ) : isoformat (truncate clock) = isoformat clock := by
  have hday : truncate clock / dayLength = clock / dayLength := by
    unfold truncate dayLength
    omega
  have htime : truncate clock % dayLength / 1000 = clock % dayLength / 1000 := by
    unfold truncate dayLength
    omega
  rw [isoformat_eq, isoformat_eq, body, body, hday, htime]

end CanyonOS.IsoTime
