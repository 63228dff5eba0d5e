import Mathlib
import CanyonOS.Controller.Governance

/-!
# Prompt versions

How the number of a prompt's next version comes out of the names of those stored:
`version_parts`, `next_revision` and `next_version`, with the numbers of JavaScript.
-/

namespace CanyonOS.Prompts

open Governance

abbrev Text := List Char

/-! ### Integers as numbers of JavaScript -/

/-- `Number` of digits; `⊤` is `Infinity`. -/
def number (value : ℕ) : WithTop ℕ :=
  if value < doubleLimit then WithTop.some (roundToDouble value) else ⊤

/-- The multiple of `unit` next to a double that reads back as it, if one does. -/
def closest (value unit : ℕ) : Option ℕ :=
  let below := value / unit * unit
  let above := below + unit
  let reads (candidate : ℕ) : Bool := roundToDouble candidate = value
  if reads below ∧ (reads above → value - below ≤ above - value) then some below
  else if reads above then some above else none

/-- The digits that are printed: the fewest that read back as the double. An integer up to
2 ^ 53 has its own. -/
def shortest (value : ℕ) : ℕ :=
  if value ≤ 2 ^ 53 then value
  else ((List.range 309).reverse.filterMap fun zeros => closest value (10 ^ zeros)).headD value

/-- From 10 ^ 21 on, the text of an integer has an exponent. -/
def exponentText (digits : Text) : Text :=
  let significant := digits.rdropWhile (· = '0')
  let fraction := if significant.tail = [] then [] else '.' :: significant.tail
  significant.take 1 ++ fraction ++ "e+".toList ++ Nat.toDigits 10 (digits.length - 1)

/-- `String` of an integer -/
def numberText (value : WithTop ℕ) : Text :=
  if value = ⊤ then "Infinity".toList
  else
    let printed := shortest (value.untopD 0)
    if printed < 10 ^ 21 then Nat.toDigits 10 printed else exponentText (Nat.toDigits 10 printed)

theorem roundToDouble_of_le {value : ℕ} (hvalue : value ≤ 2 ^ 53) :
    roundToDouble value = value := by
  obtain rfl | hlt := hvalue.eq_or_lt
  · decide
  · have hlog : Nat.log2 value - 52 = 0 := by
      obtain rfl | hne := eq_or_ne value 0
      · decide
      · have := (Nat.log2_lt hne).mpr hlt
        omega
    simp [roundToDouble, hlog, Nat.mod_one]

theorem number_of_le {value : ℕ} (hvalue : value ≤ 2 ^ 53) :
    number value = WithTop.some value := by
  have hlimit : value < doubleLimit := hvalue.trans_lt (by decide +kernel)
  rw [number, if_pos hlimit, roundToDouble_of_le hvalue]

theorem numberText_of_le {value : ℕ} (hvalue : value ≤ 2 ^ 53) :
    numberText (WithTop.some value) = Nat.toDigits 10 value := by
  have hshortest : shortest value = value := if_pos hvalue
  have hlt : value < 10 ^ 21 := by omega
  rw [numberText, if_neg WithTop.coe_ne_top, WithTop.untopD_coe, hshortest]
  exact if_pos hlt

/-! ### Revisions -/

/-- The digits after a `-v` that end the version, 0 when it has none; both patterns of
`version_parts` find the same. -/
def revision (version : Text) : ℕ :=
  let digits := version.rtakeWhile Char.isDigit
  if digits ≠ [] ∧ ['-', 'v'] <:+ version.rdropWhile Char.isDigit then
    Nat.ofDigitChars 10 digits 0
  else 0

theorem revision_append (label : Text) (value : ℕ) :
    revision (label ++ ['-', 'v'] ++ Nat.toDigits 10 value) = value := by
  have hdigits : ∀ digit ∈ (Nat.toDigits 10 value).reverse, Char.isDigit digit = true := by
    intro digit hdigit
    exact Nat.isDigit_of_mem_toDigits (by decide) (by decide) (List.mem_reverse.mp hdigit)
  have htake : (label ++ ['-', 'v'] ++ Nat.toDigits 10 value).rtakeWhile Char.isDigit =
      Nat.toDigits 10 value := by
    rw [List.rtakeWhile, List.reverse_append, List.takeWhile_append_of_pos hdigits]
    simp
  have hdrop : (label ++ ['-', 'v'] ++ Nat.toDigits 10 value).rdropWhile Char.isDigit =
      label ++ ['-', 'v'] := by
    rw [List.rdropWhile, List.reverse_append, List.dropWhile_append_of_pos hdigits]
    simp
  rw [revision, htake, hdrop, if_pos ⟨Nat.toDigits_ne_nil, List.suffix_append _ _⟩]
  exact Nat.ofDigitChars_ten_toDigits

/-! ### Prompts -/

structure SystemPrompt where
  version : Text
  content : Text
  updatedAt : Option Text
deriving DecidableEq

/-- A version as `prompts.yaml` and the stored rows carry it. -/
structure StoredPrompt extends SystemPrompt where
  live : Bool
deriving DecidableEq

structure Prompt where
  live : SystemPrompt
  versions : List SystemPrompt

/-- The first eight digits of `sha256`, the sort key behind `localeCompare`, and `toISOString` of a
`Date` made of a text. -/
structure Runtime (Key : Type*) where
  contentHash : Text → Text
  collationKey : Text → Key
  isoDate : Text → Option Text

section Runtime

variable {Key : Type*} [LinearOrder Key] (js : Runtime Key)

def rank (spec : StoredPrompt) : WithTop ℕ ×ₗ Key :=
  toLex (number (revision spec.version), js.collationKey (spec.updatedAt.getD []))

/-- Newest first: the highest revision, the newer on a tie. -/
def Before (first second : StoredPrompt) : Prop :=
  rank js second ≤ rank js first

instance : DecidableRel (Before js) :=
  fun first second => inferInstanceAs (Decidable (rank js second ≤ rank js first))

instance total_before : Std.Total (Before js) :=
  ⟨fun first second => le_total (rank js second) (rank js first)⟩

instance trans_before : IsTrans StoredPrompt (Before js) :=
  ⟨fun _ _ _ hfirst hsecond => le_trans hsecond hfirst⟩

def parsePrompt (specs : List StoredPrompt) : Option Prompt :=
  let stored := specs.insertionSort (Before js)
  match stored.head? with
  | none => none
  | some newest => some {
      live := ((stored.find? StoredPrompt.live).getD newest).toSystemPrompt
      versions := stored.map StoredPrompt.toSystemPrompt }

def nextRevision (prompt : Prompt) : WithTop ℕ :=
  let newest := number (revision ((prompt.versions.head?.map SystemPrompt.version).getD []))
  if newest = ⊤ then ⊤ else number (newest.untopD 0 + 1)

def nextVersion (name : Text) (prompt : Prompt) (content : Text) : Text :=
  name.map (fun char => if char = '.' then '-' else char) ++ ['-'] ++ js.contentHash content ++
    ['-', 'v'] ++ numberText (nextRevision prompt)

variable {js} {specs : List StoredPrompt} {prompt : Prompt}

theorem parsePrompt_eq_none : parsePrompt js specs = none ↔ specs = [] := by
  rw [parsePrompt]
  constructor
  · intro hnone
    split at hnone
    case h_1 hhead =>
      rw [List.head?_eq_none_iff] at hhead
      exact List.eq_nil_of_length_eq_zero
        ((List.length_insertionSort (Before js) specs).symm.trans (congrArg List.length hhead))
    case h_2 => cases hnone
  · rintro rfl
    rfl

/-- What `parse_prompt` gives is about the sorted versions. -/
theorem eq_of_parsePrompt (hprompt : parsePrompt js specs = some prompt) :
    ∃ newest older, specs.insertionSort (Before js) = newest :: older ∧
      prompt.versions = (newest :: older).map StoredPrompt.toSystemPrompt ∧
      prompt.live = (((newest :: older).find? StoredPrompt.live).getD newest).toSystemPrompt := by
  rw [parsePrompt] at hprompt
  cases hsorted : specs.insertionSort (Before js) with
  | nil =>
      rw [hsorted] at hprompt
      cases hprompt
  | cons newest older =>
      rw [hsorted] at hprompt
      cases hprompt
      exact ⟨newest, older, rfl, rfl, rfl⟩

theorem mem_versions_iff (hprompt : parsePrompt js specs = some prompt) {version : SystemPrompt} :
    version ∈ prompt.versions ↔ ∃ spec ∈ specs, spec.toSystemPrompt = version := by
  obtain ⟨newest, older, hsorted, hversions, -⟩ := eq_of_parsePrompt hprompt
  rw [hversions, ← hsorted, List.mem_map]
  constructor
  · rintro ⟨spec, hspec, heq⟩
    exact ⟨spec, (List.mem_insertionSort _).mp hspec, heq⟩
  · rintro ⟨spec, hspec, heq⟩
    exact ⟨spec, (List.mem_insertionSort _).mpr hspec, heq⟩

theorem live_mem_versions (hprompt : parsePrompt js specs = some prompt) :
    prompt.live ∈ prompt.versions := by
  obtain ⟨newest, older, -, hversions, hlive⟩ := eq_of_parsePrompt hprompt
  rw [hversions, hlive]
  refine List.mem_map_of_mem ?_
  cases hfind : (newest :: older).find? StoredPrompt.live with
  | none => exact List.mem_cons_self
  | some spec => exact List.mem_of_find?_eq_some hfind

/-- The one version flagged `live` is the live one. -/
theorem live_eq_of_unique (hprompt : parsePrompt js specs = some prompt) {spec : StoredPrompt}
    (hspec : spec ∈ specs) (hlive : spec.live = true)
    (hunique : ∀ other ∈ specs, other.live = true → other = spec) :
    prompt.live = spec.toSystemPrompt := by
  obtain ⟨newest, older, hsorted, -, heq⟩ := eq_of_parsePrompt hprompt
  have hmem : ∀ {other}, other ∈ newest :: older ↔ other ∈ specs := by
    intro other
    rw [← hsorted]
    exact List.mem_insertionSort _
  rw [heq]
  cases hfind : (newest :: older).find? StoredPrompt.live with
  | none => exact absurd hlive (List.find?_eq_none.mp hfind spec (hmem.mpr hspec))
  | some found =>
      have hsame := hunique found (hmem.mp (List.mem_of_find?_eq_some hfind))
        (List.find?_some hfind)
      rw [Option.getD_some, hsame]

/-- The next version's number is above every one that a `Number` can tell from the next. -/
theorem revision_lt_nextVersion (hprompt : parsePrompt js specs = some prompt) {name content : Text}
    (hsmall : ∀ spec ∈ specs, revision spec.version < 2 ^ 53) {spec : StoredPrompt}
    (hspec : spec ∈ specs) :
    revision spec.version < revision (nextVersion js name prompt content) := by
  obtain ⟨newest, older, hsorted, hversions, -⟩ := eq_of_parsePrompt hprompt
  have hmem : ∀ {other}, other ∈ newest :: older ↔ other ∈ specs := by
    intro other
    rw [← hsorted]
    exact List.mem_insertionSort _
  have hnewest : revision newest.version < 2 ^ 53 := hsmall newest (hmem.mp List.mem_cons_self)
  have hnumber : number (revision newest.version) = WithTop.some (revision newest.version) :=
    number_of_le hnewest.le
  have hnext : nextRevision prompt = WithTop.some (revision newest.version + 1) := by
    have hhead : (prompt.versions.head?.map SystemPrompt.version).getD [] = newest.version := by
      rw [hversions]
      rfl
    rw [nextRevision, hhead, hnumber]
    exact (if_neg WithTop.coe_ne_top).trans (number_of_le hnewest)
  rw [nextVersion, hnext, numberText_of_le hnewest, revision_append]
  -- the first of the sorted versions has the highest revision
  have hfirst : rank js spec ≤ rank js newest := by
    have hpairwise := List.pairwise_insertionSort (Before js) specs
    rw [hsorted] at hpairwise
    obtain rfl | holder := List.mem_cons.mp (hmem.mpr hspec)
    · exact le_rfl
    · exact List.rel_of_pairwise_cons hpairwise holder
  rw [rank, rank, hnumber, number_of_le (hsmall spec hspec).le, Prod.Lex.toLex_le_toLex] at hfirst
  obtain hlt | ⟨heq, -⟩ := hfirst
  · exact (WithTop.coe_lt_coe.mp hlt).trans (Nat.lt_succ_self _)
  · exact (WithTop.coe_eq_coe.mp heq).trans_lt (Nat.lt_succ_self _)

end Runtime

end CanyonOS.Prompts
