import Mathlib
import CanyonOS.Lib.Trimming
import CanyonOS.Controller.Reload
import CanyonOS.Operator.ApplyProject

/-!
# Kubernetes names of agents

`resource_name` in Python and `ResourceName` in Go, the check of the names in the `kubernetes:`
section's schema, and the names that `render` gives. The check reads the names as the manifest has
them, `render` with their `${VAR}` references expanded.
-/

namespace CanyonOS.AgentNames

open CodePoints ApplyProject Trimming

/-! ### Lowercase -/

def capitalDottedI : CodePoint := 0x130

def combiningDot : CodePoint := 0x307

def capitalSigma : CodePoint := 0x3A3

def kelvinSign : CodePoint := 0x212A

def isUpper (char : CodePoint) : Bool :=
  ofChar 'A' ≤ char ∧ char ≤ ofChar 'Z'

/-- The lowercase letter of each character, as a version of Unicode has it. -/
structure LowerCase where
  simple : CodePoint → CodePoint
  ascii : ∀ char, char.val < 0x80 →
    simple char = if isUpper char then Fin.ofNat _ (char.val + 0x20) else char
  dotted : simple capitalDottedI = ofChar 'i'
  kelvin : simple kelvinSign = ofChar 'k'
  other : ∀ char, 0x80 ≤ char.val → char ≠ capitalDottedI → char ≠ kelvinSign →
    0x80 ≤ (simple char).val

/-- The lowercase of Python: of one letter alone it is two characters. -/
structure PythonCase extends LowerCase where
  /-- a capital sigma after and before these texts ends a word -/
  isFinal : CodePoints → CodePoints → Bool

def PythonCase.lowerFrom (python : PythonCase) (before : CodePoints) : CodePoints → CodePoints
  | [] => []
  | char :: after =>
      (if char = capitalDottedI then [ofChar 'i', combiningDot]
       else if char = capitalSigma then [if python.isFinal before after then 0x3C2 else 0x3C3]
       else [python.simple char]) ++ lowerFrom python (before ++ [char]) after

/-- `str.lower` -/
def PythonCase.lower (python : PythonCase) : CodePoints → CodePoints :=
  python.lowerFrom []

/-! ### The name in Go -/

def isHighSurrogate (char : CodePoint) : Bool :=
  0xD800 ≤ char.val ∧ char.val < 0xDC00

def isLowSurrogate (char : CodePoint) : Bool :=
  0xDC00 ≤ char.val ∧ char.val < 0xE000

def replacement : CodePoint := 0xFFFD

def rune (char : CodePoint) : CodePoint :=
  if isHighSurrogate char ∨ isLowSurrogate char then replacement else char

/-- A text as Go reads it from JSON: a pair of surrogates is one character, one alone is replaced.
-/
def runes : CodePoints → CodePoints
  | [] => []
  | [char] => [rune char]
  | high :: low :: text =>
      if isHighSurrogate high ∧ isLowSurrogate low then
        Fin.ofNat _ (0x10000 + (high.val - 0xD800) * 0x400 + (low.val - 0xDC00)) :: runes text
      else rune high :: runes (low :: text)

/-- `ResourceName` -/
def goResourceName (go : LowerCase) (agentName : CodePoints) : CodePoints :=
  let name := ((hyphenate false (agentName.map go.simple)).dropWhile isHyphen).rdropWhile isHyphen
  if 63 < name.length then (name.take 63).rdropWhile isHyphen else name

/-! ### The check and the rendering -/

/-- An entry of `agents` as the manifest has it. -/
structure Entry where
  name : CodePoints
  isDatabase : Bool

/-- `expand_env_value` of an entry; the schema lets no key stand that has a reference. -/
def Entry.expand (environ : CodePoints → Option CodePoints) (entry : Entry) : Entry :=
  { entry with name := Reload.expandStr environ entry.name }

def reservedNames : List CodePoints :=
  [ofString "endpoint", ofString "canyonos-endpoint", ofString "canyonos-redis",
    ofString "canyonos-gc"]

inductive NameProblem where
  | noLetters
  | reserved (name : CodePoints)
  | taken (name other : CodePoints)

/-- The message the check adds, with Python's `repr`. -/
def NameProblem.message (repr : CodePoints → CodePoints) : NameProblem → CodePoints
  | noLetters => ofString "has no letters or digits for a Kubernetes name"
  | reserved name => ofString "becomes the Kubernetes name " ++ repr name ++
      ofString ", which the project itself uses; rename the agent"
  | taken name other => ofString "becomes the Kubernetes name " ++ repr name ++
      ofString ", the same as " ++ repr other ++ ofString "; rename one"

/-- The problems with the field `agents[index].name`, from an index on and with the names taken
before it. -/
def agentNamesFrom (lower : CodePoints → CodePoints) (index : ℕ)
    (taken : List (CodePoints × CodePoints)) : List Entry → List (ℕ × NameProblem)
  | [] => []
  | entry :: entries =>
      match resourceName lower entry.name with
      | none => (index, .noLetters) :: agentNamesFrom lower (index + 1) taken entries
      | some name =>
          if name ∈ reservedNames then
            (index, .reserved name) :: agentNamesFrom lower (index + 1) taken entries
          else
            match taken.lookup name with
            | some other =>
                (index, .taken name other) :: agentNamesFrom lower (index + 1) taken entries
            | none => agentNamesFrom lower (index + 1) ((name, entry.name) :: taken) entries

/-- `_agent_names` -/
def agentNames (lower : CodePoints → CodePoints) (entries : List Entry) : List (ℕ × NameProblem) :=
  agentNamesFrom lower 0 [] entries

/-- The names of the agents' objects in `render`; none where `resource_name` raises. -/
def renderNames (lower : CodePoints → CodePoints) (entries : List Entry) :
    Option (List CodePoints) :=
  (entries.map Entry.name).mapM (resourceName lower)

theorem renderNames_of_render {setup : Setup} {folder : Folder} {live : CodePoints → Option ℕ}
    {objects : List (CodePoints × (Field → Option SpecValue))} {entries : List Entry}
    (hnames : entries.map Entry.name = folder.agents.map AgentSpec.name)
    (hrender : render setup folder live = some objects) :
    renderNames setup.lower entries = some (objects.map Prod.fst) := by
  rw [renderNames, hnames]
  have hforall := forall₂_of_mapM hrender
  clear hrender hnames
  generalize folder.agents = specs at hforall
  induction hforall with
  | nil => rfl
  | cons hobject hrest ih =>
      rw [List.map_cons, List.mapM_cons, (renders hobject).name, ih]
      rfl

def IsDnsLabel (name : CodePoints) : Prop :=
  name ≠ [] ∧ name.length ≤ 63 ∧ (∀ char ∈ name, isNameChar char) ∧
    (∀ char ∈ name.head?, ¬ isHyphen char) ∧ ∀ char ∈ name.getLast?, ¬ isHyphen char

/-! ### What a name keeps -/

def kept (char : CodePoint) : Option CodePoint :=
  if isNameChar char then some char else none

/-- What a name keeps of a character of the agent's name; the rest becomes hyphens. -/
def LowerCase.keep (table : LowerCase) (char : CodePoint) : Option CodePoint :=
  kept (table.simple char)

def hyphened : Bool → List (Option CodePoint) → CodePoints
  | _, [] => []
  | _, some char :: text => char :: hyphened false text
  | inRun, none :: text => if inRun then hyphened true text else ofChar '-' :: hyphened true text

theorem hyphenate_eq_hyphened (inRun : Bool) (text : CodePoints) :
    hyphenate inRun text = hyphened inRun (text.map kept) := by
  induction text generalizing inRun with
  | nil => rfl
  | cons char text ih =>
      rw [hyphenate, List.map_cons, kept]
      split_ifs with hname hrun
      · rw [hyphened, ih]
      · rw [hyphened, if_pos hrun, ih]
      · rw [hyphened, if_neg hrun, ih]

theorem kept_of_le {char : CodePoint} (hchar : 0x80 ≤ char.val) : kept char = none := by
  have hnot : ¬ isNameChar char = true := by
    have hz : (ofChar 'z').val = 122 := rfl
    have hnine : (ofChar '9').val = 57 := rfl
    have hhyphen : (ofChar '-').val = 45 := rfl
    simp only [isNameChar, decide_eq_true_eq, Fin.le_def, Fin.ext_iff, hz, hnine, hhyphen]
    omega
  rw [kept, if_neg hnot]

variable (table other : LowerCase)

theorem keep_dotted : table.keep capitalDottedI = some (ofChar 'i') := by
  rw [LowerCase.keep, table.dotted]
  rfl

theorem keep_of_le {char : CodePoint} (hchar : 0x80 ≤ char.val) (hdotted : char ≠ capitalDottedI)
    (hkelvin : char ≠ kelvinSign) : table.keep char = none :=
  kept_of_le (table.other char hchar hdotted hkelvin)

/-- Versions of Unicode differ only in what names do not keep. -/
theorem keep_eq (char : CodePoint) : table.keep char = other.keep char := by
  by_cases hdotted : char = capitalDottedI
  · rw [hdotted, keep_dotted, keep_dotted]
  · by_cases hkelvin : char = kelvinSign
    · rw [hkelvin, LowerCase.keep, LowerCase.keep, table.kelvin, other.kelvin]
    · by_cases hchar : char.val < 0x80
      · rw [LowerCase.keep, LowerCase.keep, table.ascii char hchar, other.ascii char hchar]
      · have hle : 0x80 ≤ char.val := by omega
        rw [keep_of_le table hle hdotted hkelvin, keep_of_le other hle hdotted hkelvin]

/-- What a name keeps in Python: the dot of a capital dotted i becomes a character of its own. -/
def pythonKept (text : CodePoints) : List (Option CodePoint) :=
  text.flatMap fun char =>
    if char = capitalDottedI then [some (ofChar 'i'), none] else [table.keep char]

theorem map_kept_lowerFrom (python : PythonCase) (before text : CodePoints) :
    (python.lowerFrom before text).map kept = pythonKept python.toLowerCase text := by
  induction text generalizing before with
  | nil => rfl
  | cons char text ih =>
      rw [PythonCase.lowerFrom, List.map_append, ih, pythonKept, pythonKept, List.flatMap_cons]
      congr 1
      split_ifs with hdotted hsigma hfinal
      · rfl
      · rw [hsigma, keep_of_le _ (by decide) (by decide) (by decide)]
        rfl
      · rw [hsigma, keep_of_le _ (by decide) (by decide) (by decide)]
        rfl
      · rfl

theorem keep_of_surrogate {char : CodePoint}
    (hchar : isHighSurrogate char = true ∨ isLowSurrogate char = true) :
    table.keep char = none := by
  have hrange : 0xD800 ≤ char.val ∧ char.val < 0xE000 := by
    simp only [isHighSurrogate, isLowSurrogate, decide_eq_true_eq] at hchar
    omega
  refine keep_of_le table (by omega) (fun heq => ?_) (fun heq => ?_)
  · rw [heq] at hrange
    exact absurd hrange (by decide)
  · rw [heq] at hrange
    exact absurd hrange (by decide)

theorem keep_rune (char : CodePoint) : table.keep (rune char) = table.keep char := by
  rw [rune]
  split_ifs with hsurrogate
  · rw [keep_of_surrogate table hsurrogate]
    exact keep_of_le table (by decide) (by decide) (by decide)
  · rfl

theorem keep_joined {high low : CodePoint} (hhigh : isHighSurrogate high = true)
    (hlow : isLowSurrogate low = true) :
    table.keep (Fin.ofNat _ (0x10000 + (high.val - 0xD800) * 0x400 + (low.val - 0xDC00))) =
      none := by
  simp only [isHighSurrogate, isLowSurrogate, decide_eq_true_eq] at hhigh hlow
  have hvalue : (Fin.ofNat 0x110000 (0x10000 + (high.val - 0xD800) * 0x400 +
      (low.val - 0xDC00))).val = 0x10000 + (high.val - 0xD800) * 0x400 + (low.val - 0xDC00) := by
    rw [Fin.val_ofNat]
    exact Nat.mod_eq_of_lt (by omega)
  refine keep_of_le table (by omega) (fun heq => ?_) (fun heq => ?_)
  · have hdotted : capitalDottedI.val = 0x130 := rfl
    rw [heq] at hvalue
    omega
  · have hkelvin : kelvinSign.val = 0x212A := rfl
    rw [heq] at hvalue
    omega

theorem hyphened_none_none (inRun : Bool) (text : List (Option CodePoint)) :
    hyphened inRun (none :: none :: text) = hyphened inRun (none :: text) := by
  cases inRun <;> simp [hyphened]

/-- What Go makes of surrogates does not show in the name. -/
theorem hyphened_runes (inRun : Bool) (text : CodePoints) :
    hyphened inRun ((runes text).map table.keep) = hyphened inRun (text.map table.keep) := by
  fun_induction runes text generalizing inRun with
  | case1 => rfl
  | case2 char => rw [List.map_singleton, List.map_singleton, keep_rune]
  | case3 high low text hpair ih =>
      have hjoined := keep_joined table hpair.1 hpair.2
      rw [List.map_cons, hjoined, List.map_cons, List.map_cons,
        keep_of_surrogate table (.inl hpair.1), keep_of_surrogate table (.inr hpair.2),
        hyphened_none_none]
      cases inRun <;> simp [hyphened, ih]
  | case4 high low text hpair ih =>
      rw [List.map_cons, keep_rune, List.map_cons]
      cases table.keep high <;> cases inRun <;> simp only [hyphened, ih]

/-! ### Where the two differ -/

def isLetter (char : Option CodePoint) : Bool :=
  char.any fun char => !isHyphen char

/-- Neither a letter nor a digit of a name. -/
def LowerCase.isGap (table : LowerCase) (char : CodePoint) : Bool :=
  !isLetter (table.keep char)

/-- The name so far, of the start of an agent's name. -/
def LowerCase.hyphenatedStart (table : LowerCase) (start : CodePoints) : CodePoints :=
  (hyphenate false (start.map table.simple)).dropWhile isHyphen

/-- A capital dotted i stands directly before a letter, digit or hyphen, and the next letter or
digit is one of the first 63 characters of the name. -/
def Parted (table : LowerCase) (agentName : CodePoints) : Prop :=
  ∃ before after, agentName = before ++ capitalDottedI :: after ∧
    (∃ char ∈ after.head?, table.keep char ≠ none) ∧ after.dropWhile table.isGap ≠ [] ∧
    (table.hyphenatedStart (before ++ capitalDottedI :: after.takeWhile table.isGap)).length < 63

/-- `Parted` within the names without their leading hyphens. -/
def PartedFrom (limit : ℕ) (inRun : Bool) (text : CodePoints) : Prop :=
  ∃ before after, text = before ++ capitalDottedI :: after ∧
    (∃ char ∈ after.head?, table.keep char ≠ none) ∧ after.dropWhile table.isGap ≠ [] ∧
    (hyphened inRun ((before ++ capitalDottedI :: after.takeWhile table.isGap).map
      table.keep)).length < limit

section Parted

variable {table} {limit : ℕ} {inRun : Bool} {char : CodePoint} {text : CodePoints}

theorem hyphened_append_some (inRun : Bool) (before : List (Option CodePoint)) (char : CodePoint)
    (after : List (Option CodePoint)) :
    hyphened inRun (before ++ some char :: after) =
      hyphened inRun before ++ char :: hyphened false after := by
  induction before generalizing inRun with
  | nil => rfl
  | cons first before ih =>
      cases first with
      | none => cases inRun <;> simp [hyphened, ih]
      | some first => simp [hyphened, ih]

theorem hyphened_start (inRun : Bool) (before after : List (Option CodePoint)) :
    hyphened inRun before <+: hyphened inRun (before ++ after) := by
  induction before generalizing inRun with
  | nil => exact List.nil_prefix
  | cons first before ih =>
      cases first with
      | none =>
          cases inRun
          · simpa [hyphened] using ih true
          · simpa [hyphened] using ih true
      | some first => simpa [hyphened] using ih false

/-- A gap becomes hyphens. -/
theorem hyphened_of_gap (inRun : Bool) {gap : CodePoints}
    (hgap : ∀ char ∈ gap, table.isGap char) :
    ∀ char ∈ hyphened inRun (gap.map table.keep), isHyphen char := by
  induction gap generalizing inRun with
  | nil => simp [hyphened]
  | cons first gap ih =>
      obtain ⟨hfirst, hrest⟩ := List.forall_mem_cons.mp hgap
      rw [List.map_cons]
      cases hkeep : table.keep first with
      | none =>
          cases inRun
          · simpa [hyphened, isHyphen] using ih true hrest
          · simpa [hyphened] using ih true hrest
      | some char =>
          have hhyphen : isHyphen char = true := by
            simpa [LowerCase.isGap, isLetter, hkeep] using hfirst
          simpa [hyphened, hhyphen] using ih false hrest

theorem isGap_dotted : table.isGap capitalDottedI = false := by
  rw [LowerCase.isGap, keep_dotted]
  rfl

theorem pythonKept_of_gap {gap : CodePoints} (hgap : ∀ char ∈ gap, table.isGap char) :
    pythonKept table gap = gap.map table.keep := by
  induction gap with
  | nil => rfl
  | cons first gap ih =>
      obtain ⟨hfirst, hrest⟩ := List.forall_mem_cons.mp hgap
      have hne : first ≠ capitalDottedI := by
        rintro rfl
        rw [isGap_dotted] at hfirst
        cases hfirst
      rw [pythonKept, List.flatMap_cons, if_neg hne, ← pythonKept, ih hrest]
      rfl

theorem exists_pythonKept_cons (text : CodePoints) {letter : CodePoint} (hletter : table.keep char = some letter) :
    ∃ rest, pythonKept table (char :: text) = some letter :: rest := by
  rw [pythonKept, List.flatMap_cons]
  by_cases hdotted : char = capitalDottedI
  · rw [hdotted, keep_dotted] at hletter
    cases hletter
    exact ⟨none :: _, by rw [if_pos hdotted]; rfl⟩
  · exact ⟨_, by rw [if_neg hdotted, hletter]; rfl⟩

/-- What follows a capital dotted i starts a part of the name and goes on to a letter or digit. -/
def LowerCase.Continues (table : LowerCase) (after : CodePoints) : Prop :=
  (∃ char ∈ after.head?, table.keep char ≠ none) ∧ after.dropWhile table.isGap ≠ []

theorem partedFrom_cons_iff :
    PartedFrom table limit inRun (char :: text) ↔
      (char = capitalDottedI ∧ table.Continues text ∧
        (hyphened inRun ((char :: text.takeWhile table.isGap).map table.keep)).length < limit) ∨
      ∃ before after, text = before ++ capitalDottedI :: after ∧ table.Continues after ∧
        (hyphened inRun ((char :: (before ++ capitalDottedI :: after.takeWhile table.isGap)).map
          table.keep)).length < limit := by
  constructor
  · rintro ⟨before, after, heq, hkeep, htail, hlength⟩
    cases before with
    | nil =>
        obtain ⟨rfl, rfl⟩ := List.cons.inj heq
        exact .inl ⟨rfl, ⟨hkeep, htail⟩, hlength⟩
    | cons first before =>
        obtain ⟨rfl, rfl⟩ := List.cons.inj heq
        exact .inr ⟨before, after, rfl, ⟨hkeep, htail⟩, hlength⟩
  · rintro (⟨rfl, ⟨hkeep, htail⟩, hlength⟩ | ⟨before, after, rfl, ⟨hkeep, htail⟩, hlength⟩)
    · exact ⟨[], text, rfl, hkeep, htail, hlength⟩
    · exact ⟨char :: before, after, rfl, hkeep, htail, hlength⟩

theorem partedFrom_cons_some_iff {letter : CodePoint} (hletter : table.keep char = some letter)
    (hne : char ≠ capitalDottedI) :
    PartedFrom table (limit + 1) inRun (char :: text) ↔ PartedFrom table limit false text := by
  rw [partedFrom_cons_iff, or_iff_right fun h => hne h.1]
  simp only [PartedFrom, LowerCase.Continues, List.map_cons, hletter, hyphened, List.length_cons,
    Nat.add_lt_add_iff_right, and_assoc]

theorem partedFrom_cons_none_iff (hgap : table.keep char = none) :
    PartedFrom table (limit + 1) false (char :: text) ↔ PartedFrom table limit true text := by
  have hne : char ≠ capitalDottedI := by
    rintro rfl
    rw [keep_dotted] at hgap
    cases hgap
  rw [partedFrom_cons_iff, or_iff_right fun h => hne h.1]
  simp only [PartedFrom, LowerCase.Continues, List.map_cons, hgap, hyphened, Bool.false_eq_true,
    if_false, List.length_cons, Nat.add_lt_add_iff_right, and_assoc]

theorem partedFrom_cons_none_run_iff (hgap : table.keep char = none) :
    PartedFrom table limit true (char :: text) ↔ PartedFrom table limit true text := by
  have hne : char ≠ capitalDottedI := by
    rintro rfl
    rw [keep_dotted] at hgap
    cases hgap
  rw [partedFrom_cons_iff, or_iff_right fun h => hne h.1]
  simp only [PartedFrom, LowerCase.Continues, List.map_cons, hgap, hyphened, if_true, and_assoc]

theorem partedFrom_cons_dotted_iff :
    PartedFrom table (limit + 1) inRun (capitalDottedI :: text) ↔
      (table.Continues text ∧
        (hyphened false ((text.takeWhile table.isGap).map table.keep)).length < limit) ∨
      PartedFrom table limit false text := by
  rw [partedFrom_cons_iff]
  simp only [PartedFrom, LowerCase.Continues, List.map_cons, keep_dotted, hyphened,
    List.length_cons, Nat.add_lt_add_iff_right, and_assoc, true_and]

/-- The letters and digits at which a later capital dotted i stands are behind the first ones. -/
theorem length_gap_lt_of_partedFrom (hparted : PartedFrom table limit false text) :
    (hyphened false ((text.takeWhile table.isGap).map table.keep)).length < limit := by
  obtain ⟨before, after, rfl, -, -, hlength⟩ := hparted
  have hunder : (before ++ capitalDottedI :: after).takeWhile table.isGap <+: before := by
    rw [List.takeWhile_append, List.takeWhile_cons_of_neg (by simp [isGap_dotted]),
      List.append_nil]
    split_ifs
    · exact List.prefix_refl _
    · exact List.takeWhile_prefix _
  obtain ⟨rest, hrest⟩ := hunder
  refine lt_of_le_of_lt ?_ hlength
  conv_rhs => rw [← hrest, List.append_assoc, List.map_append]
  exact (hyphened_start _ _ _).length_le

theorem all_isGap_of_dropWhile_eq_nil (hnil : text.dropWhile table.isGap = []) :
    ∀ char ∈ text, table.isGap char :=
  List.dropWhile_eq_nil_iff.mp hnil

theorem not_partedFrom_of_gap (hgap : ∀ char ∈ text, table.isGap char) :
    ¬ PartedFrom table limit inRun text := by
  rintro ⟨before, after, rfl, -⟩
  have hdotted := hgap capitalDottedI (by simp)
  rw [isGap_dotted] at hdotted
  cases hdotted

/-- The hyphen for the dot, where a letter, digit or hyphen follows. -/
theorem same_hyphen_iff (hhead : ∃ char ∈ text.head?, table.keep char ≠ none) :
    Same isHyphen limit (ofChar '-' :: hyphened true (pythonKept table text))
        (hyphened false (text.map table.keep)) ↔
      ¬ (table.Continues text ∧
        (hyphened false ((text.takeWhile table.isGap).map table.keep)).length < limit) := by
  have hfirst : hyphened true (pythonKept table text) = hyphened false (pythonKept table text) := by
    obtain ⟨first, hmem, hkeep⟩ := hhead
    obtain ⟨letter, hletter⟩ := Option.ne_none_iff_exists'.mp hkeep
    obtain ⟨rest, rfl⟩ : ∃ rest, text = first :: rest := by
      cases text with
      | nil => cases hmem
      | cons other rest =>
          cases hmem
          exact ⟨rest, rfl⟩
    obtain ⟨kept, hkept⟩ := exists_pythonKept_cons rest hletter
    rw [hkept]
    rfl
  have hgap : ∀ char ∈ text.takeWhile table.isGap, table.isGap char :=
    fun char hchar => List.mem_takeWhile_imp hchar
  rw [hfirst]
  cases htail : text.dropWhile table.isGap with
  | nil =>
      have hall := all_isGap_of_dropWhile_eq_nil htail
      refine iff_of_true (same_of_fillers ?_ (hyphened_of_gap false hall)) ?_
      · rw [pythonKept_of_gap hall]
        exact List.forall_mem_cons.mpr ⟨by decide, hyphened_of_gap false hall⟩
      · rintro ⟨⟨-, hne⟩, -⟩
        exact hne htail
  | cons char rest =>
      have hsplit := List.takeWhile_append_dropWhile (p := table.isGap) (l := text)
      rw [htail] at hsplit
      have hchar : table.isGap char = false := by
        have hnot := List.head_dropWhile_not table.isGap (l := text) (by simp [htail])
        simpa only [htail, List.head_cons] using hnot
      obtain ⟨letter, hletter, hnot⟩ : ∃ letter, table.keep char = some letter ∧
          isHyphen letter = false := by
        cases hkeep : table.keep char with
        | none => simp [LowerCase.isGap, isLetter, hkeep] at hchar
        | some letter =>
            exact ⟨letter, rfl, by simpa [LowerCase.isGap, isLetter, hkeep] using hchar⟩
      obtain ⟨kept, hkept⟩ := exists_pythonKept_cons rest hletter
      have hpython : pythonKept table text =
          (text.takeWhile table.isGap).map table.keep ++ some letter :: kept := by
        conv_lhs => rw [← hsplit, pythonKept, List.flatMap_append]
        rw [← pythonKept, ← pythonKept, pythonKept_of_gap hgap, hkept]
      have hgo : text.map table.keep =
          (text.takeWhile table.isGap).map table.keep ++ some letter :: rest.map table.keep := by
        conv_lhs => rw [← hsplit, List.map_append, List.map_cons, hletter]
      have hhyphens : hyphened false ((text.takeWhile table.isGap).map table.keep) =
          List.replicate
            (hyphened false ((text.takeWhile table.isGap).map table.keep)).length (ofChar '-') := by
        refine List.eq_replicate_iff.mpr ⟨rfl, fun hyphen hhyphen => ?_⟩
        exact of_decide_eq_true (hyphened_of_gap false hgap hyphen hhyphen)
      rw [hpython, hgo, hyphened_append_some, hyphened_append_some, hhyphens,
        same_fillers_iff (by decide) hnot, List.length_replicate]
      constructor
      · rintro hle ⟨-, hlt⟩
        omega
      · intro hnot
        by_contra hlt
        exact hnot ⟨⟨hhead, by simp [htail]⟩, by omega⟩

/-- The names in the two languages agree unless a capital dotted i parts them. -/
theorem same_iff (text : CodePoints) : ∀ limit inRun,
    Same isHyphen limit (hyphened inRun (pythonKept table text))
      (hyphened inRun (text.map table.keep)) ↔ ¬ PartedFrom table limit inRun text := by
  induction text with
  | nil =>
      intro limit inRun
      exact iff_of_true rfl (not_partedFrom_of_gap (by simp))
  | cons char text ih =>
      intro limit inRun
      cases limit with
      | zero =>
          refine iff_of_true same_zero ?_
          rintro ⟨_, _, _, _, _, hlength⟩
          omega
      | succ limit =>
          by_cases hdotted : char = capitalDottedI
          · subst hdotted
            have hpython : pythonKept table (capitalDottedI :: text) =
                some (ofChar 'i') :: none :: pythonKept table text := by
              rw [pythonKept, List.flatMap_cons, if_pos rfl]
              rfl
            rw [hpython, List.map_cons, keep_dotted, partedFrom_cons_dotted_iff]
            simp only [hyphened, Bool.false_eq_true, if_false, same_cons_iff]
            by_cases hhead : ∃ char ∈ text.head?, table.keep char ≠ none
            · rw [same_hyphen_iff hhead, not_or, iff_self_and]
              intro hnot hparted
              refine hnot ⟨⟨hhead, fun hnil => ?_⟩, length_gap_lt_of_partedFrom hparted⟩
              exact not_partedFrom_of_gap (all_isGap_of_dropWhile_eq_nil hnil) hparted
            · have hcontinues : ¬ (table.Continues text ∧
                  (hyphened false ((text.takeWhile table.isGap).map table.keep)).length < limit) :=
                fun h => hhead h.1.1
              rw [or_iff_right hcontinues, ← ih limit false]
              cases text with
              | nil =>
                  have hhyphen : ∀ char ∈ [ofChar '-'], isHyphen char := by simp [isHyphen]
                  simp only [pythonKept, List.flatMap_nil, List.map_nil, hyphened]
                  exact iff_of_true (same_of_fillers hhyphen (List.forall_mem_nil _))
                    (same_of_fillers (List.forall_mem_nil _) (List.forall_mem_nil _))
              | cons first text =>
                  have hnone : table.keep first = none := by
                    by_contra hkeep
                    exact hhead ⟨first, rfl, hkeep⟩
                  have hne : first ≠ capitalDottedI := by
                    rintro rfl
                    rw [keep_dotted] at hnone
                    cases hnone
                  simp only [pythonKept, List.flatMap_cons, if_neg hne, hnone, List.map_cons,
                    List.singleton_append, hyphened, Bool.false_eq_true, if_false, if_true]
          · rw [pythonKept, List.flatMap_cons, if_neg hdotted, ← pythonKept, List.singleton_append,
              List.map_cons]
            cases hkeep : table.keep char with
            | some letter =>
                rw [hyphened, hyphened, same_cons_iff, partedFrom_cons_some_iff hkeep hdotted]
                exact ih limit false
            | none =>
                cases inRun with
                | false =>
                    simp only [hyphened, Bool.false_eq_true, if_false, same_cons_iff]
                    rw [partedFrom_cons_none_iff hkeep]
                    exact ih limit true
                | true =>
                    simp only [hyphened, if_true]
                    rw [partedFrom_cons_none_run_iff hkeep]
                    exact ih (limit + 1) true

theorem dropWhile_hyphened_map (inRun : Bool) (text : CodePoints) :
    (hyphened inRun (text.map table.keep)).dropWhile isHyphen =
      hyphened false ((text.dropWhile table.isGap).map table.keep) := by
  induction text generalizing inRun with
  | nil => rfl
  | cons char text ih =>
      rw [List.dropWhile_cons, LowerCase.isGap, List.map_cons]
      cases hkeep : table.keep char with
      | none => cases inRun <;> simpa [hyphened, isLetter, isHyphen] using ih true
      | some letter =>
          by_cases hhyphen : isHyphen letter = true
          · simpa [hyphened, isLetter, hhyphen] using ih false
          · simp [hyphened, isLetter, hhyphen, hkeep]

theorem dropWhile_hyphened_python (inRun : Bool) (text : CodePoints) :
    (hyphened inRun (pythonKept table text)).dropWhile isHyphen =
      hyphened false (pythonKept table (text.dropWhile table.isGap)) := by
  induction text generalizing inRun with
  | nil => rfl
  | cons char text ih =>
      by_cases hdotted : char = capitalDottedI
      · rw [List.dropWhile_cons_of_neg (by simp [hdotted, isGap_dotted]), pythonKept,
          List.flatMap_cons, if_pos hdotted]
        rfl
      · rw [List.dropWhile_cons, LowerCase.isGap]
        cases hkeep : table.keep char with
        | none =>
            cases inRun <;>
              simpa [pythonKept, List.flatMap_cons, hdotted, hkeep, hyphened, isLetter, isHyphen]
                using ih true
        | some letter =>
            by_cases hhyphen : isHyphen letter = true
            · simpa [pythonKept, List.flatMap_cons, hdotted, hkeep, hyphened, isLetter, hhyphen]
                using ih false
            · simp [pythonKept, List.flatMap_cons, hdotted, hkeep, hyphened, isLetter, hhyphen]

theorem dropWhile_append_dotted (before after : CodePoints) :
    (before ++ capitalDottedI :: after).dropWhile table.isGap =
      before.dropWhile table.isGap ++ capitalDottedI :: after := by
  induction before with
  | nil => simp [isGap_dotted]
  | cons char before ih =>
      rw [List.cons_append, List.dropWhile_cons, List.dropWhile_cons]
      split_ifs
      · exact ih
      · rfl

theorem hyphenatedStart_eq (start : CodePoints) :
    table.hyphenatedStart start =
      hyphened false ((start.dropWhile table.isGap).map table.keep) := by
  rw [← dropWhile_hyphened_map false, LowerCase.hyphenatedStart, hyphenate_eq_hyphened,
    List.map_map]
  rfl

theorem parted_iff (agentName : CodePoints) :
    Parted table agentName ↔ PartedFrom table 63 false (agentName.dropWhile table.isGap) := by
  constructor
  · rintro ⟨before, after, rfl, hhead, htail, hlength⟩
    rw [hyphenatedStart_eq, dropWhile_append_dotted] at hlength
    exact ⟨before.dropWhile table.isGap, after, dropWhile_append_dotted before after, hhead, htail,
      hlength⟩
  · rintro ⟨before, after, heq, hhead, htail, hlength⟩
    have hsplit := List.takeWhile_append_dropWhile (p := table.isGap) (l := agentName)
    have hbefore : before.dropWhile table.isGap = before := by
      have hdrop := congrArg (List.dropWhile table.isGap) heq
      rw [List.dropWhile_idempotent, heq, dropWhile_append_dotted] at hdrop
      exact (List.append_cancel_right hdrop).symm
    refine ⟨agentName.takeWhile table.isGap ++ before, after, ?_, hhead, htail, ?_⟩
    · rw [List.append_assoc, ← heq, hsplit]
    · have hgap : ∀ char ∈ agentName.takeWhile table.isGap, table.isGap char :=
        fun char hchar => List.mem_takeWhile_imp hchar
      rw [hyphenatedStart_eq, List.append_assoc, List.dropWhile_append_of_pos hgap,
        dropWhile_append_dotted, hbefore]
      exact hlength

end Parted

/-! ### The names -/

theorem resourceName_eq (lower : CodePoints → CodePoints) (agentName : CodePoints) :
    resourceName lower agentName =
      if trim isHyphen 63 (hyphenate false (lower agentName)) = [] then none
      else some (trim isHyphen 63 (hyphenate false (lower agentName))) := by
  have hnil (text : CodePoints) : (text.dropWhile isHyphen).rdropWhile isHyphen = [] ↔
      trim isHyphen 63 text = [] := by
    rw [trim_eq_nil_iff isHyphen (by decide), List.rdropWhile_eq_nil_iff]
    rw [← List.dropWhile_eq_nil_iff, ← List.dropWhile_eq_nil_iff, List.dropWhile_idempotent]
  rw [resourceName]
  simp only [hnil, rdropWhile_take_rdropWhile]
  rfl

theorem goResourceName_eq (go : LowerCase) (agentName : CodePoints) :
    goResourceName go agentName = trim isHyphen 63 (hyphenate false (agentName.map go.simple)) := by
  have htrim := rdropWhile_take_rdropWhile isHyphen 63
    ((hyphenate false (agentName.map go.simple)).dropWhile isHyphen)
  rw [goResourceName, trim, ← htrim]
  split_ifs with hlong
  · rfl
  · rw [List.take_of_length_le (by omega), List.rdropWhile_idempotent]

theorem isNameChar_of_mem_hyphenate (text : CodePoints) (inRun : Bool) :
    ∀ char ∈ hyphenate inRun text, isNameChar char = true := by
  induction text generalizing inRun with
  | nil => simp [hyphenate]
  | cons first text ih =>
      rw [hyphenate]
      split_ifs with hname hrun
      · exact List.forall_mem_cons.mpr ⟨hname, ih false⟩
      · exact ih true
      · exact List.forall_mem_cons.mpr ⟨by decide, ih true⟩

theorem isDnsLabel_of_resourceName {lower : CodePoints → CodePoints} {agentName name : CodePoints}
    (hname : resourceName lower agentName = some name) : IsDnsLabel name := by
  rw [resourceName_eq] at hname
  split_ifs at hname with hnil
  cases hname
  have hmem : ∀ char ∈ trim isHyphen 63 (hyphenate false (lower agentName)),
      char ∈ ((hyphenate false (lower agentName)).dropWhile isHyphen).take 63 :=
    fun char hchar => (List.rdropWhile_prefix _ _).mem hchar
  refine ⟨hnil, ?_, ?_, ?_, ?_⟩
  · exact (List.rdropWhile_prefix _ _).length_le.trans (List.length_take_le _ _)
  · intro char hchar
    have htake := List.mem_of_mem_take (hmem char hchar)
    exact isNameChar_of_mem_hyphenate _ _ char ((List.dropWhile_suffix _).mem htake)
  · intro char hchar
    obtain ⟨rest, hrest⟩ := List.rdropWhile_prefix isHyphen
      (l := ((hyphenate false (lower agentName)).dropWhile isHyphen).take 63)
    have hhead : char ∈ ((hyphenate false (lower agentName)).dropWhile isHyphen).head? := by
      have htake := List.head?_take (l := (hyphenate false (lower agentName)).dropWhile isHyphen)
        (i := 63)
      rw [if_neg (by decide)] at htake
      rw [← htake, ← hrest]
      exact (List.head?_append_of_ne_nil _ hnil).symm ▸ hchar
    have hnot := List.head?_dropWhile_not isHyphen (hyphenate false (lower agentName))
    rw [Option.mem_def.mp hhead] at hnot
    simpa using hnot
  · intro char hchar
    rw [List.getLast?_eq_some_getLast hnil] at hchar
    cases hchar
    exact List.rdropWhile_last_not _ _ hnil

theorem renderNames_cons_eq_some {lower : CodePoints → CodePoints} {entry : Entry}
    {entries : List Entry} {names : List CodePoints} :
    renderNames lower (entry :: entries) = some names ↔
      ∃ name rest, resourceName lower entry.name = some name ∧
        renderNames lower entries = some rest ∧ names = name :: rest := by
  rw [renderNames, List.map_cons, List.mapM_cons]
  simp only [Option.bind_eq_bind, Option.bind_eq_some_iff, renderNames]
  constructor
  · rintro ⟨name, hname, rest, hrest, hnames⟩
    exact ⟨name, rest, hname, hrest, (Option.some.inj hnames).symm⟩
  · rintro ⟨name, rest, hname, hrest, rfl⟩
    exact ⟨name, hname, rest, hrest, rfl⟩

/-- The names are given, distinct, not reserved and not taken. -/
def Free (lower : CodePoints → CodePoints) (taken : List (CodePoints × CodePoints))
    (entries : List Entry) : Prop :=
  ∃ names, renderNames lower entries = some names ∧ names.Nodup ∧
    ∀ name ∈ names, name ∉ reservedNames ∧ taken.lookup name = none

theorem free_cons_iff {lower : CodePoints → CodePoints} {taken : List (CodePoints × CodePoints)}
    {entry : Entry} {entries : List Entry} :
    Free lower taken (entry :: entries) ↔
      ∃ name, resourceName lower entry.name = some name ∧ name ∉ reservedNames ∧
        taken.lookup name = none ∧ Free lower ((name, entry.name) :: taken) entries := by
  constructor
  · rintro ⟨names, hnames, hnodup, hfree⟩
    obtain ⟨name, rest, hname, hrest, rfl⟩ := renderNames_cons_eq_some.mp hnames
    obtain ⟨hnot, hnodup⟩ := List.nodup_cons.mp hnodup
    obtain ⟨⟨hreserved, htaken⟩, hfree⟩ := List.forall_mem_cons.mp hfree
    refine ⟨name, hname, hreserved, htaken, rest, hrest, hnodup, fun other hother => ?_⟩
    have hne : (other == name) = false := beq_false_of_ne (ne_of_mem_of_not_mem hother hnot)
    rw [List.lookup, hne]
    exact hfree other hother
  · rintro ⟨name, hname, hreserved, htaken, rest, hrest, hnodup, hfree⟩
    have hnot : name ∉ rest := by
      intro hmem
      have hlookup := (hfree name hmem).2
      rw [List.lookup, beq_self_eq_true] at hlookup
      cases hlookup
    refine ⟨name :: rest, renderNames_cons_eq_some.mpr ⟨name, rest, hname, hrest, rfl⟩,
      List.nodup_cons.mpr ⟨hnot, hnodup⟩, List.forall_mem_cons.mpr ⟨⟨hreserved, htaken⟩, ?_⟩⟩
    intro other hother
    obtain ⟨hreserved', hlookup⟩ := hfree other hother
    have hne : (other == name) = false := beq_false_of_ne (ne_of_mem_of_not_mem hother hnot)
    rw [List.lookup, hne] at hlookup
    exact ⟨hreserved', hlookup⟩

theorem agentNamesFrom_eq_nil_iff (lower : CodePoints → CodePoints) (index : ℕ)
    (taken : List (CodePoints × CodePoints)) (entries : List Entry) :
    agentNamesFrom lower index taken entries = [] ↔ Free lower taken entries := by
  induction entries generalizing index taken with
  | nil => exact iff_of_true rfl ⟨[], rfl, List.nodup_nil, List.forall_mem_nil _⟩
  | cons entry entries ih =>
      rw [agentNamesFrom, free_cons_iff]
      cases hname : resourceName lower entry.name with
      | none => simp
      | some name =>
          by_cases hreserved : name ∈ reservedNames
          · simp [hreserved]
          · simp only [hreserved, if_false]
            cases htaken : taken.lookup name with
            | some other =>
                refine iff_of_false (List.cons_ne_nil _ _) ?_
                rintro ⟨_, hname', -, hnone, -⟩
                cases hname'
                rw [htaken] at hnone
                cases hnone
            | none =>
                simp only [ih]
                constructor
                · intro hfree
                  exact ⟨name, rfl, hreserved, htaken, hfree⟩
                · rintro ⟨_, hname', -, -, hfree⟩
                  cases hname'
                  exact hfree

/-! ### Both languages -/

/-- `render` gives different agents different names that are not the project's own, and both
languages the same one, a DNS label. -/
structure NamesHold (python : PythonCase) (go : LowerCase) (entries : List Entry) : Prop where
  distinct : ∃ names, renderNames python.lower entries = some names ∧ names.Nodup ∧
    ∀ name ∈ names, name ∉ reservedNames
  same : ∀ entry ∈ entries, ∃ name, resourceName python.lower entry.name = some name ∧
    goResourceName go (runes entry.name) = name ∧ IsDnsLabel name

variable {table other} (python : PythonCase) (go : LowerCase)

theorem hyphenate_lower (agentName : CodePoints) :
    hyphenate false (python.lower agentName) =
      hyphened false (pythonKept python.toLowerCase agentName) := by
  rw [hyphenate_eq_hyphened, PythonCase.lower, map_kept_lowerFrom]

theorem hyphenate_runes (agentName : CodePoints) :
    hyphenate false ((runes agentName).map go.simple) =
      hyphened false (agentName.map go.keep) := by
  rw [hyphenate_eq_hyphened, List.map_map, ← hyphened_runes]
  rfl

theorem pythonKept_eq (table other : LowerCase) (text : CodePoints) : pythonKept table text = pythonKept other text := by
  simp only [pythonKept, keep_eq table other]

/-- A name of Python is that of Go exactly where no capital dotted i parts it. -/
theorem goResourceName_eq_iff {agentName name : CodePoints}
    (hname : resourceName python.lower agentName = some name) :
    goResourceName go (runes agentName) = name ↔ ¬ Parted go agentName := by
  rw [resourceName_eq] at hname
  split_ifs at hname
  cases hname
  rw [goResourceName_eq, hyphenate_lower, hyphenate_runes, parted_iff, ← same_iff, Same,
    ← dropWhile_hyphened_map false, ← dropWhile_hyphened_python false, eq_comm,
    pythonKept_eq _ go]
  rfl

theorem exists_resourceName {lower : CodePoints → CodePoints} {entries : List Entry}
    {names : List CodePoints} (hnames : renderNames lower entries = some names) :
    ∀ entry ∈ entries, ∃ name, resourceName lower entry.name = some name := by
  induction entries generalizing names with
  | nil => exact List.forall_mem_nil _
  | cons entry entries ih =>
      obtain ⟨name, rest, hname, hrest, rfl⟩ := renderNames_cons_eq_some.mp hnames
      exact List.forall_mem_cons.mpr ⟨⟨name, hname⟩, ih hrest⟩

/-- What is rendered holds exactly where the check also finds nothing in the expanded names, and no
capital dotted i parts one. -/
theorem names_hold_iff (environ : CodePoints → Option CodePoints) (entries : List Entry) :
    NamesHold python go (entries.map (Entry.expand environ)) ↔
      agentNames python.lower (entries.map (Entry.expand environ)) = [] ∧
        ∀ entry ∈ entries, ¬ Parted go (entry.expand environ).name := by
  rw [agentNames, agentNamesFrom_eq_nil_iff]
  constructor
  · rintro ⟨⟨names, hnames, hnodup, hreserved⟩, hsame⟩
    refine ⟨⟨names, hnames, hnodup, fun name hname => ⟨hreserved name hname, rfl⟩⟩, ?_⟩
    intro entry hentry
    obtain ⟨name, hname, hgo, -⟩ := hsame _ (List.mem_map_of_mem hentry)
    exact (goResourceName_eq_iff python go hname).mp hgo
  · rintro ⟨⟨names, hnames, hnodup, hfree⟩, hparted⟩
    refine ⟨⟨names, hnames, hnodup, fun name hname => (hfree name hname).1⟩, ?_⟩
    intro expanded hexpanded
    obtain ⟨name, hname⟩ := exists_resourceName hnames expanded hexpanded
    obtain ⟨entry, hentry, rfl⟩ := List.mem_map.mp hexpanded
    exact ⟨name, hname, (goResourceName_eq_iff python go hname).mpr (hparted entry hentry),
      isDnsLabel_of_resourceName hname⟩

/-! ### The schema's other checks of the names -/

/-- What the schema asks Python about a text. -/
structure TextTests where
  isIdentifier : CodePoints → Bool
  isKeyword : CodePoints → Bool
  isBlank : CodePoints → Bool

/-- `ENV_REF.search` finds something. -/
def hasReference : CodePoints → Bool
  | [] => false
  | char :: text => (Reload.reference (char :: text)).isSome || hasReference text

def stubGlobalNames : List CodePoints :=
  [ofString "Future", ofString "inspect", ofString "isinstance"]

/-- The name of an entry passes `_string`, and `_identifier` where the agent has code. -/
def Entry.acceptsName (tests : TextTests) (environ : CodePoints → Option CodePoints)
    (entry : Entry) : Bool :=
  let name := (entry.expand environ).name
  !hasReference name && !tests.isBlank name &&
    (entry.isDatabase ||
      tests.isIdentifier name && !tests.isKeyword name && decide (name ∉ stubGlobalNames))

/-- The schema accepts the names of a manifest with a `kubernetes:` section. -/
structure Accepted (python : PythonCase) (tests : TextTests)
    (environ : CodePoints → Option CodePoints) (entries : List Entry) : Prop where
  names : ∀ entry ∈ entries, entry.acceptsName tests environ
  distinct : (entries.map fun entry => python.lower (entry.expand environ).name).Nodup
  notEndpoint : ∀ entry ∈ entries, python.lower (entry.expand environ).name ≠ ofString "endpoint"
  kubernetes : agentNames python.lower entries = []

section Example

def asciiSimple (char : CodePoint) : CodePoint :=
  if isUpper char then Fin.ofNat _ (char.val + 0x20)
  else if char = capitalDottedI then ofChar 'i'
  else if char = kelvinSign then ofChar 'k'
  else char

def asciiCase : PythonCase where
  simple := asciiSimple
  ascii char hchar := by
    have hdotted : char ≠ capitalDottedI := by
      rintro rfl
      exact absurd hchar (by decide)
    have hkelvin : char ≠ kelvinSign := by
      rintro rfl
      exact absurd hchar (by decide)
    rw [asciiSimple, if_neg hdotted, if_neg hkelvin]
  dotted := by decide
  kelvin := by decide
  other char hchar hdotted hkelvin := by
    have hupper : ¬ isUpper char = true := by
      have hz : (ofChar 'Z').val = 90 := rfl
      simp only [isUpper, decide_eq_true_eq, Fin.le_def, hz]
      omega
    rw [asciiSimple, if_neg hupper, if_neg hdotted, if_neg hkelvin]
    exact hchar
  isFinal _ _ := false

def asciiTests : TextTests where
  isIdentifier name := name.all Reload.isNameChar && (name.head?.any Reload.isNameStart)
  isKeyword _ := false
  isBlank name := name.all fun char => char = ofChar ' '

def planners : List Entry :=
  [⟨ofString "$\x7bPLANNER\x7d", false⟩, ⟨ofString "$\x7bWRITER\x7d", false⟩]

def plannerEnviron (name : CodePoints) : Option CodePoints :=
  if name = ofString "PLANNER" then some (ofString "Plan_A")
  else if name = ofString "WRITER" then some (ofString "Plan__A")
  else none

/-- Two agents whose names are references get one Kubernetes name. -/
theorem references_share_a_name :
    ¬ ∀ (python : PythonCase) (go : LowerCase) (tests : TextTests)
      (environ : CodePoints → Option CodePoints) (entries : List Entry),
      Accepted python tests environ entries →
        NamesHold python go (entries.map (Entry.expand environ)) := by
  intro hhold
  have haccepted : Accepted asciiCase asciiTests plannerEnviron planners := by
    constructor
    · decide +kernel
    · decide +kernel
    · decide +kernel
    · decide +kernel
  obtain ⟨names, hnames, hnodup, -⟩ := (hhold asciiCase asciiCase.toLowerCase asciiTests
    plannerEnviron planners haccepted).distinct
  have hrendered : renderNames asciiCase.lower (planners.map (Entry.expand plannerEnviron)) =
      some [ofString "plan-a", ofString "plan-a"] := by
    decide +kernel
  rw [hrendered] at hnames
  cases hnames
  exact absurd hnodup (by decide +kernel)

end Example

end CanyonOS.AgentNames
