import CanyonOS.Lib.Trimming
import Mathlib.Data.Char
import Mathlib.Data.List.GetD
import Mathlib.Data.List.Lex
import Mathlib.Data.Prod.Lex
import Mathlib.Data.Sum.Order
import Mathlib.Order.WithBot

/-!
# Versions and specifiers

Versions with an epoch, a release of any number of parts, and pre-, post-, development and local
parts; their order, where a release has any number of zeros behind it; and the specifiers that allow
some of them.
-/

namespace Versions

/-! ### Releases -/

section Releases

/-- A release without the zeros behind it. -/
def trim (release : List ℕ) : List ℕ :=
  release.rdropWhile fun part => part = 0

/-- The first part that differs is smaller, where a missing part is zero. -/
def Before (first second : List ℕ) : Prop :=
  ∃ i, (∀ j < i, first.getD j 0 = second.getD j 0) ∧ first.getD i 0 < second.getD i 0

theorem nil_lt_of_ne {parts : List ℕ} (hne : parts ≠ []) : [] < parts := by
  obtain ⟨part, parts, rfl⟩ := List.exists_cons_of_ne_nil hne
  exact List.nil_lt_cons part parts

theorem trim_cons_lt_trim_cons {part other : ℕ} {first second : List ℕ} :
    trim (part :: first) < trim (other :: second) ↔
      part < other ∨ part = other ∧ trim first < trim second := by
  simp only [trim, Trimming.rdropWhile_cons, decide_eq_true_eq]
  split_ifs with hfirst hsecond hsecond
  · rw [hfirst.1, hfirst.2, hsecond.1, hsecond.2]
    simp
  · rw [hfirst.1, hfirst.2]
    simp only [List.nil_lt_cons, true_iff]
    by_cases hzero : other = 0
    · exact .inr ⟨hzero.symm, nil_lt_of_ne fun hnil => hsecond ⟨hnil, hzero⟩⟩
    · exact .inl (Nat.pos_of_ne_zero hzero)
  · rw [hsecond.1, hsecond.2]
    simp
  · exact List.cons_lt_cons_iff

theorem before_cons {part other : ℕ} {first second : List ℕ} :
    Before (part :: first) (other :: second) ↔
      part < other ∨ part = other ∧ Before first second := by
  constructor
  · rintro ⟨i, hsame, hless⟩
    cases i with
    | zero => exact .inl hless
    | succ i =>
        exact .inr ⟨hsame 0 i.succ_pos, i,
          fun j hj => hsame (j + 1) (Nat.succ_lt_succ hj), hless⟩
  · rintro (hless | ⟨rfl, i, hsame, hless⟩)
    · exact ⟨0, nofun, hless⟩
    · refine ⟨i + 1, fun j hj => ?_, hless⟩
      cases j with
      | zero => rfl
      | succ j => exact hsame j (Nat.lt_of_succ_lt_succ hj)

theorem before_iff_of_getD {first second others : List ℕ}
    (hsame : ∀ i, others.getD i 0 = first.getD i 0) :
    (Before others second ↔ Before first second) ∧
      (Before second others ↔ Before second first) := by
  simp only [Before, hsame, and_self]

theorem getD_zero_cons (i : ℕ) : ([0] : List ℕ).getD i 0 = [].getD i 0 := by
  cases i <;> rfl

theorem trim_lt_trim_iff {first second : List ℕ} :
    trim first < trim second ↔ Before first second := by
  have hzero : trim [0] = trim [] := rfl
  induction first generalizing second with
  | nil =>
      induction second with
      | nil =>
          exact ⟨fun hlt => absurd hlt (lt_irrefl _), fun ⟨_, _, hlt⟩ => absurd hlt (lt_irrefl _)⟩
      | cons other second ih =>
          rw [← hzero, trim_cons_lt_trim_cons, ← (before_iff_of_getD getD_zero_cons).1, before_cons]
          exact or_congr_right (and_congr_right fun _ => ih)
  | cons part first ih =>
      cases second with
      | nil =>
          rw [← hzero, trim_cons_lt_trim_cons, ← (before_iff_of_getD getD_zero_cons).2, before_cons]
          exact or_congr_right (and_congr_right fun _ => ih)
      | cons other second =>
          rw [trim_cons_lt_trim_cons, before_cons]
          exact or_congr_right (and_congr_right fun _ => ih)

/-- The release starts with the parts. -/
def HasPrefix (parts release : List ℕ) : Prop :=
  ∀ i < parts.length, release.getD i 0 = parts.getD i 0

instance (parts release : List ℕ) : Decidable (HasPrefix parts release) :=
  inferInstanceAs (Decidable (∀ i < parts.length, _))

/-- The last part counted up. -/
def next (parts : List ℕ) : List ℕ :=
  parts.dropLast ++ [parts.getLastD 0 + 1]

theorem next_concat (init : List ℕ) (last : ℕ) : next (init ++ [last]) = init ++ [last + 1] := by
  simp [next]

theorem getD_concat (init : List ℕ) (last i : ℕ) :
    (init ++ [last]).getD i 0 =
      if i < init.length then init.getD i 0 else if i = init.length then last else 0 := by
  split_ifs with hinit hlast
  · exact List.getD_append _ _ _ _ hinit
  · subst hlast
    rw [List.getD_append_right _ _ _ _ le_rfl, Nat.sub_self]
    rfl
  · exact List.getD_eq_default _ _ (by simp; omega)

theorem hasPrefix_concat {init release : List ℕ} {last : ℕ} :
    HasPrefix (init ++ [last]) release ↔
      (∀ i < init.length, release.getD i 0 = init.getD i 0) ∧
        release.getD init.length 0 = last := by
  constructor
  · intro hstart
    refine ⟨fun i hi => ?_, ?_⟩
    · rw [hstart i (by simp; omega), getD_concat, if_pos hi]
    · rw [hstart init.length (by simp), getD_concat, if_neg (lt_irrefl _), if_pos rfl]
  · rintro ⟨hinit, hlast⟩ i hi
    rw [getD_concat]
    split_ifs with hlt heq
    · exact hinit i hlt
    · rw [heq, hlast]
    · simp at hi
      omega

theorem not_before_of_hasPrefix {parts release : List ℕ} (hstart : HasPrefix parts release) :
    ¬ Before release parts := by
  rintro ⟨i, -, hless⟩
  by_cases hi : i < parts.length
  · exact hless.ne (hstart i hi)
  · rw [List.getD_eq_default parts _ (Nat.le_of_not_lt hi)] at hless
    exact Nat.not_lt_zero _ hless

theorem before_next_of_hasPrefix {parts release : List ℕ} (hne : parts ≠ [])
    (hstart : HasPrefix parts release) : Before release (next parts) := by
  obtain ⟨init, last, rfl⟩ := (List.eq_nil_or_concat' parts).resolve_left hne
  obtain ⟨hinit, hlast⟩ := hasPrefix_concat.mp hstart
  rw [next_concat]
  refine ⟨init.length, fun j hj => ?_, ?_⟩
  · rw [hinit j hj, getD_concat, if_pos hj]
  · rw [hlast, getD_concat, if_neg (lt_irrefl _), if_pos rfl]
    exact last.lt_succ_self

/-- The releases from the parts on, before the next parts, start with the parts. -/
theorem hasPrefix_of_before_next {parts release : List ℕ} (hne : parts ≠ [])
    (hfrom : ¬ Before release parts) (hbefore : Before release (next parts)) :
    HasPrefix parts release := by
  obtain ⟨init, last, rfl⟩ := (List.eq_nil_or_concat' parts).resolve_left hne
  rw [next_concat] at hbefore
  obtain ⟨i, hsame, hless⟩ := hbefore
  simp only [getD_concat] at hsame hless
  have hagree (j : ℕ) (hj : j < i) (hinit : j < init.length) :
      release.getD j 0 = init.getD j 0 := by
    rw [hsame j hj, if_pos hinit]
  have hlength : i = init.length := by
    rcases Nat.lt_trichotomy i init.length with hlt | heq | hgt
    · refine absurd ⟨i, fun j hj => ?_, ?_⟩ hfrom
      · rw [hagree j hj (hj.trans hlt), getD_concat, if_pos (hj.trans hlt)]
      · rw [getD_concat, if_pos hlt]
        rwa [if_pos hlt] at hless
    · exact heq
    · rw [if_neg hgt.not_gt, if_neg hgt.ne'] at hless
      exact absurd hless (Nat.not_lt_zero _)
  subst hlength
  rw [if_neg (lt_irrefl _), if_pos rfl] at hless
  refine hasPrefix_concat.mpr ⟨fun j hj => hagree j hj hj, ?_⟩
  by_contra hlast
  refine hfrom ⟨init.length, fun j hj => ?_, ?_⟩
  · rw [hagree j hj hj, getD_concat, if_pos hj]
  · rw [getD_concat, if_neg (lt_irrefl _), if_pos rfl]
    omega

theorem hasPrefix_dropLast {parts : List ℕ} (hne : parts ≠ []) :
    HasPrefix parts.dropLast parts := by
  intro i hi
  conv_lhs => rw [← List.dropLast_append_getLast hne]
  exact List.getD_append _ _ _ _ hi

/-- Between two releases there is one with more parts. -/
theorem exists_between {first second : List ℕ} (hbefore : Before first second) :
    ∃ middle ≠ [], Before first middle ∧ Before middle second := by
  obtain ⟨i, hsame, hless⟩ := hbefore
  have hi : i < second.length := by
    by_contra hge
    rw [List.getD_eq_default second _ (Nat.le_of_not_lt hge)] at hless
    exact Nat.not_lt_zero _ hless
  let zeros := first ++ List.replicate second.length 0
  have hzeros (j : ℕ) : zeros.getD j 0 = first.getD j 0 := by
    by_cases hj : j < first.length
    · exact List.getD_append _ _ _ _ hj
    · rw [List.getD_append_right _ _ _ _ (Nat.le_of_not_lt hj),
        List.getD_eq_default first _ (Nat.le_of_not_lt hj)]
      simp [List.getD_eq_getElem?_getD, List.getElem?_replicate]
      split_ifs <;> rfl
  have hlength : i < zeros.length := by
    simp only [zeros, List.length_append, List.length_replicate]
    omega
  refine ⟨zeros ++ [1], by simp, ⟨zeros.length, fun j hj => ?_, ?_⟩, i, fun j hj => ?_, ?_⟩
  · rw [getD_concat, if_pos hj, hzeros]
  · rw [getD_concat, if_neg (lt_irrefl _), if_pos rfl, ← hzeros,
      List.getD_eq_default zeros _ le_rfl]
    exact Nat.one_pos
  · rw [getD_concat, if_pos (hj.trans hlength), hzeros, hsame j hj]
  · rw [getD_concat, if_pos hlength, hzeros]
    exact hless

end Releases

/-- A final release, which is also the start of others. -/
structure Release where
  epoch : ℕ
  parts : List ℕ
  nonempty : parts ≠ []
deriving DecidableEq

namespace Release

def key (release : Release) : ℕ ×ₗ List ℕ :=
  toLex (release.epoch, trim release.parts)

/-- The next release with as many parts. -/
def next (release : Release) : Release where
  epoch := release.epoch
  parts := Versions.next release.parts
  nonempty := by simp [Versions.next]

/-- The other release is of this series. -/
def Has (series release : Release) : Prop :=
  release.epoch = series.epoch ∧ HasPrefix series.parts release.parts

instance (series release : Release) : Decidable (series.Has release) :=
  inferInstanceAs (Decidable (_ ∧ _))

variable {series release : Release}

theorem has_self : series.Has series :=
  ⟨rfl, fun _ _ => rfl⟩

theorem key_lt_key_iff (hepoch : release.epoch = series.epoch) :
    release.key < series.key ↔ Before release.parts series.parts := by
  rw [key, key, Prod.Lex.toLex_lt_toLex, hepoch, trim_lt_trim_iff]
  simp

theorem epoch_eq_of_has (hhas : series.Has release) : release.epoch = series.epoch :=
  hhas.1

theorem key_le_of_has (hhas : series.Has release) : series.key ≤ release.key :=
  not_lt.mp fun hlt => not_before_of_hasPrefix hhas.2 ((key_lt_key_iff hhas.1).mp hlt)

theorem key_lt_next_of_has (hhas : series.Has release) : release.key < series.next.key :=
  (@key_lt_key_iff series.next release hhas.1).mpr
    (before_next_of_hasPrefix series.nonempty hhas.2)

theorem epoch_le_of_key_le (hle : series.key ≤ release.key) : series.epoch ≤ release.epoch :=
  Prod.Lex.monotone_fst _ _ hle

theorem has_of_key_lt_next (hfrom : series.key ≤ release.key)
    (hbefore : release.key < series.next.key) : series.Has release := by
  have hepoch : release.epoch = series.epoch :=
    le_antisymm (@epoch_le_of_key_le release series.next hbefore.le) (epoch_le_of_key_le hfrom)
  refine ⟨hepoch, hasPrefix_of_before_next series.nonempty ?_ ?_⟩
  · exact fun hlt => hfrom.not_gt ((key_lt_key_iff hepoch).mpr hlt)
  · exact (@key_lt_key_iff series.next release hepoch).mp hbefore

theorem key_lt_of_epoch_lt (hlt : series.epoch < release.epoch) : series.key < release.key :=
  Prod.Lex.toLex_lt_toLex.mpr (.inl hlt)

theorem exists_later (first second : Release) :
    ∃ later : Release, first.epoch < later.epoch ∧ second.epoch < later.epoch :=
  ⟨⟨max first.epoch second.epoch + 1, [0], List.cons_ne_nil _ _⟩,
    Nat.lt_succ_of_le (le_max_left _ _), Nat.lt_succ_of_le (le_max_right _ _)⟩

theorem exists_key_between (hlt : release.key < series.key) :
    ∃ middle : Release, release.key < middle.key ∧ middle.key < series.key := by
  rcases (epoch_le_of_key_le hlt.le).lt_or_eq with hepoch | hepoch
  · obtain ⟨middle, hne, hbefore, -⟩ :=
      exists_between (before_next_of_hasPrefix release.nonempty fun _ _ => rfl)
    refine ⟨⟨release.epoch, middle, hne⟩, ?_, key_lt_of_epoch_lt hepoch⟩
    exact (@key_lt_key_iff ⟨release.epoch, middle, hne⟩ release rfl).mpr hbefore
  · obtain ⟨middle, hne, hfirst, hsecond⟩ := exists_between ((key_lt_key_iff hepoch).mp hlt)
    refine ⟨⟨series.epoch, middle, hne⟩, ?_, ?_⟩
    · exact (@key_lt_key_iff ⟨series.epoch, middle, hne⟩ release hepoch).mpr hfirst
    · exact (@key_lt_key_iff series ⟨series.epoch, middle, hne⟩ rfl).mpr hsecond

end Release

/-! ### Versions -/

inductive Phase where
  | alpha
  | beta
  | candidate
deriving DecidableEq

def Phase.rank : Phase → ℕ
  | alpha => 1
  | beta => 2
  | candidate => 3

structure Version where
  release : Release
  pre : Option (Phase × ℕ)
  post : Option ℕ
  dev : Option ℕ
  /-- texts and numbers; of these a text comes first -/
  localParts : Option (List (List Char ⊕ₗ ℕ))
deriving DecidableEq

def Release.version (release : Release) : Version where
  release := release
  pre := none
  post := none
  dev := none
  localParts := none

namespace Version

variable (version : Version)

def preKey : ℕ ×ₗ ℕ :=
  match version.pre, version.post, version.dev with
  | some (phase, number), _, _ => toLex (phase.rank, number)
  -- a development release of the release itself comes before its pre-releases
  | none, none, some _ => toLex (0, 0)
  | none, _, _ => toLex (4, 0)

def postKey : ℕ :=
  (version.post.map Nat.succ).getD 0

def devKey : WithTop ℕ :=
  match version.dev with
  | none => ⊤
  | some number => WithTop.some number

def localKey : WithBot (List (List Char ⊕ₗ ℕ)) :=
  match version.localParts with
  | none => ⊥
  | some parts => WithBot.some parts

abbrev PublicKey :=
  (ℕ ×ₗ List ℕ) ×ₗ (ℕ ×ₗ ℕ) ×ₗ ℕ ×ₗ WithTop ℕ

def publicKey : PublicKey :=
  toLex (version.release.key, toLex (version.preKey, toLex (version.postKey, version.devKey)))

def key : PublicKey ×ₗ WithBot (List (List Char ⊕ₗ ℕ)) :=
  toLex (version.publicKey, version.localKey)

instance : Preorder Version :=
  Preorder.lift key

instance (first second : Version) : Decidable (first ≤ second) :=
  inferInstanceAs (Decidable (first.key ≤ second.key))

instance (first second : Version) : Decidable (first < second) :=
  inferInstanceAs (Decidable (first.key < second.key))

def IsPrerelease : Prop :=
  version.pre.isSome ∨ version.dev.isSome

def IsPostrelease : Prop :=
  version.post.isSome

def IsPublic : Prop :=
  version.localParts = none

variable {version} {other : Version} {release : Release}

theorem not_lt_iff : ¬ version < other ↔ other ≤ version := by
  change ¬ version.key < other.key ↔ other.key ≤ version.key
  exact not_lt

theorem localKey_of_isPublic (hpublic : version.IsPublic) : version.localKey = ⊥ := by
  rw [localKey, hpublic]

theorem lt_iff_of_isPublic (hpublic : other.IsPublic) :
    version < other ↔ version.publicKey < other.publicKey := by
  change version.key < other.key ↔ _
  rw [key, key, Prod.Lex.toLex_lt_toLex, localKey_of_isPublic hpublic]
  simp

theorem le_iff_of_isPublic (hpublic : other.IsPublic) :
    other ≤ version ↔ other.publicKey ≤ version.publicKey := by
  rw [← not_lt_iff, lt_iff_of_isPublic hpublic, not_lt]

theorem publicKey_lt_of_release (hlt : version.release.key < other.release.key) :
    version.publicKey < other.publicKey :=
  Prod.Lex.toLex_lt_toLex.mpr (.inl hlt)

theorem release_le_of_publicKey (hle : version.publicKey ≤ other.publicKey) :
    version.release.key ≤ other.release.key :=
  Prod.Lex.monotone_fst _ _ hle

end Version

theorem Release.isPublic_version (release : Release) : release.version.IsPublic :=
  rfl

theorem Release.publicKey_lt_iff {first second : Release} :
    first.version.publicKey < second.version.publicKey ↔ first.key < second.key := by
  have hsame (release : Release) : release.version.publicKey =
      toLex (release.key, toLex (toLex (4, 0), toLex (0, ⊤))) := rfl
  rw [hsame, hsame, Prod.Lex.toLex_lt_toLex]
  simp

/-! ### Specifiers -/

structure PublicVersion extends Version where
  isPublic : toVersion.IsPublic

inductive Specifier where
  /-- `~=`; the release has at least two parts -/
  | compatible (version : PublicVersion) (long : version.release.parts.dropLast ≠ [])
  /-- `==` -/
  | equal (version : Version)
  /-- `==` with `.*` -/
  | equalSeries (series : Release)
  /-- `!=` -/
  | notEqual (version : Version)
  /-- `!=` with `.*` -/
  | notEqualSeries (series : Release)
  /-- `<=` -/
  | atMost (version : PublicVersion)
  /-- `>=` -/
  | atLeast (version : PublicVersion)
  /-- `<` -/
  | less (version : PublicVersion)
  /-- `>` -/
  | greater (version : PublicVersion)
  /-- `===` with a text: the version it is read as, and whether it is how that version is written -/
  | arbitrary (version : Option Version) (normal : Bool)

namespace Specifier

/-- A version without a local part stands for those with one. -/
def Equals (named version : Version) : Prop :=
  version.publicKey = named.publicKey ∧ (¬ named.IsPublic → version.key = named.key)

/-- The series of a compatible release. -/
def seriesOf (version : PublicVersion) (long : version.release.parts.dropLast ≠ []) : Release where
  epoch := version.release.epoch
  parts := version.release.parts.dropLast
  nonempty := long

/-- The specifier allows the version; whether a pre-release is looked at is not its matter. -/
def Allows (specifier : Specifier) (version : Version) : Prop :=
  match specifier with
  | compatible named long =>
      named.publicKey ≤ version.publicKey ∧ (seriesOf named long).Has version.release
  | equal named => Equals named version
  | equalSeries series => series.Has version.release
  | notEqual named => ¬ Equals named version
  | notEqualSeries series => ¬ series.Has version.release
  | atMost named => version.publicKey ≤ named.publicKey
  | atLeast named => named.publicKey ≤ version.publicKey
  | less named => version < named.toVersion ∧
      (version.IsPrerelease → ¬ named.IsPrerelease → version.release.key ≠ named.release.key)
  | greater named => named.toVersion < version ∧
      (version.IsPostrelease → ¬ named.IsPostrelease → version.release.key ≠ named.release.key) ∧
        (¬ version.IsPublic → version.release.key ≠ named.release.key)
  | arbitrary named normal => normal ∧ named = some version

/-- As `Allows`, but `===` is for the version that its text is read as, if any. -/
def Admits (specifier : Specifier) (version : Version) : Prop :=
  match specifier with
  | arbitrary named _ => ∀ other, named = some other → version = other
  | specifier => specifier.Allows version

theorem admits_of_allows {specifier : Specifier} {version : Version}
    (hallows : specifier.Allows version) : specifier.Admits version := by
  cases specifier with
  | arbitrary named normal =>
      intro other hother
      exact Option.some.inj (hallows.2.symm.trans hother)
  | _ => exact hallows

/-- The specifier is for versions before a release. -/
def EndsBefore (specifier : Specifier) (floor : Release) : Prop :=
  match specifier with
  | compatible named long => (seriesOf named long).next.key ≤ floor.key
  | equalSeries series => series.next.key ≤ floor.key
  | equal named | arbitrary (some named) _ => named < floor.version
  | atMost named => named.toVersion < floor.version
  | less named => named.toVersion ≤ floor.version
  | notEqual _ | notEqualSeries _ | atLeast _ | greater _ | arbitrary none _ => False

/-- The specifier is for versions from a release on. -/
def StartsFrom (specifier : Specifier) (limit : Release) : Prop :=
  match specifier with
  | equalSeries series => limit.key ≤ series.key
  | equal named | arbitrary (some named) _ => limit.version ≤ named
  | compatible named _ | atLeast named | greater named => limit.version ≤ named.toVersion
  | notEqual _ | notEqualSeries _ | atMost _ | less _ | arbitrary none _ => False

theorem has_seriesOf (version : PublicVersion) (long : version.release.parts.dropLast ≠ []) :
    (seriesOf version long).Has version.release :=
  ⟨rfl, hasPrefix_dropLast version.release.nonempty⟩

theorem equals_self (version : Version) : Equals version version :=
  ⟨rfl, fun _ => rfl⟩

section Floor

variable {floor : Release} {version : Version}

theorem lt_floor_of_release (hlt : version.release.key < floor.key) : version < floor.version :=
  (Version.lt_iff_of_isPublic floor.isPublic_version).mpr (Version.publicKey_lt_of_release hlt)

theorem floor_le_iff : floor.version ≤ version ↔ floor.version.publicKey ≤ version.publicKey :=
  Version.le_iff_of_isPublic floor.isPublic_version

theorem floor_le_of_release (hlt : floor.key < version.release.key) : floor.version ≤ version :=
  floor_le_iff.mpr (Version.publicKey_lt_of_release hlt).le

theorem floor_key_le (hle : floor.version ≤ version) : floor.key ≤ version.release.key :=
  Version.release_le_of_publicKey (floor_le_iff.mp hle)

theorem lt_of_key_lt_next {series : Release} (hhas : series.Has version.release)
    (hnext : series.next.key ≤ floor.key) : version < floor.version :=
  lt_floor_of_release ((Release.key_lt_next_of_has hhas).trans_le hnext)

theorem not_isPrerelease_version (release : Release) : ¬ release.version.IsPrerelease := by
  rintro (hpre | hdev)
  · cases hpre
  · cases hdev

/-- Some version from the floor on is admitted. -/
theorem exists_admits_of_not_endsBefore (specifier : Specifier)
    (hends : ¬ specifier.EndsBefore floor) :
    ∃ version, floor.version ≤ version ∧ specifier.Admits version := by
  cases specifier with
  | compatible named long =>
      rcases le_or_gt floor.version.publicKey named.publicKey with hnamed | hnamed
      · exact ⟨named.toVersion, floor_le_iff.mpr hnamed, le_rfl, has_seriesOf named long⟩
      · refine ⟨floor.version, le_rfl, hnamed.le, ?_⟩
        refine Release.has_of_key_lt_next ?_ (not_le.mp hends)
        exact (Release.key_le_of_has (has_seriesOf named long)).trans
          (Version.release_le_of_publicKey hnamed.le)
  | equal named => exact ⟨named, Version.not_lt_iff.mp hends, equals_self named⟩
  | equalSeries series =>
      rcases lt_or_ge floor.key series.key with hseries | hseries
      · exact ⟨series.version, floor_le_of_release hseries, Release.has_self⟩
      · exact ⟨floor.version, le_rfl, Release.has_of_key_lt_next hseries (not_le.mp hends)⟩
  | notEqual named =>
      obtain ⟨later, hfloor, hnamed⟩ := Release.exists_later floor named.release
      refine ⟨later.version, floor_le_of_release (Release.key_lt_of_epoch_lt hfloor), fun heq => ?_⟩
      exact (Version.publicKey_lt_of_release (Release.key_lt_of_epoch_lt hnamed)).ne' heq.1
  | notEqualSeries series =>
      obtain ⟨later, hfloor, hseries⟩ := Release.exists_later floor series
      refine ⟨later.version, floor_le_of_release (Release.key_lt_of_epoch_lt hfloor),
        fun hhas => ?_⟩
      exact hseries.ne' hhas.1
  | atMost named => exact ⟨floor.version, le_rfl, floor_le_iff.mp (Version.not_lt_iff.mp hends)⟩
  | atLeast named =>
      obtain ⟨later, hfloor, hnamed⟩ := Release.exists_later floor named.release
      exact ⟨later.version, floor_le_of_release (Release.key_lt_of_epoch_lt hfloor),
        (Version.publicKey_lt_of_release (Release.key_lt_of_epoch_lt hnamed)).le⟩
  | less named =>
      refine ⟨floor.version, le_rfl, ?_, fun hpre => absurd hpre (not_isPrerelease_version floor)⟩
      by_contra hlt
      exact hends (Version.not_lt_iff.mp hlt)
  | greater named =>
      obtain ⟨later, hfloor, hnamed⟩ := Release.exists_later floor named.release
      have hlt := Release.key_lt_of_epoch_lt hnamed
      refine ⟨later.version, floor_le_of_release (Release.key_lt_of_epoch_lt hfloor), ?_,
        fun _ _ => hlt.ne', fun _ => hlt.ne'⟩
      exact (Version.lt_iff_of_isPublic later.isPublic_version).mpr
        (Version.publicKey_lt_of_release hlt)
  | arbitrary named normal =>
      cases named with
      | none => exact ⟨floor.version, le_rfl, nofun⟩
      | some named =>
          exact ⟨named, Version.not_lt_iff.mp hends, fun other hother => Option.some.inj hother⟩

/-- A specifier that ends before the floor is one that nothing from the floor on satisfies. -/
theorem endsBefore_iff (specifier : Specifier) :
    specifier.EndsBefore floor ↔
      ∀ version, floor.version ≤ version → ¬ specifier.Admits version := by
  refine ⟨fun hends version hfrom hadmits => ?_, fun hnone => ?_⟩
  · have hpublic := floor_le_iff.mp hfrom
    cases specifier with
    | compatible named long =>
        exact Version.not_lt_iff.mpr hfrom (lt_of_key_lt_next hadmits.2 hends)
    | equalSeries series => exact Version.not_lt_iff.mpr hfrom (lt_of_key_lt_next hadmits hends)
    | equal named =>
        have hnamed := (Version.lt_iff_of_isPublic floor.isPublic_version).mp hends
        exact (hnamed.trans_le hpublic).ne' hadmits.1
    | atMost named =>
        have hnamed := (Version.lt_iff_of_isPublic floor.isPublic_version).mp hends
        exact (hnamed.trans_le hpublic).not_ge hadmits
    | less named => exact Version.not_lt_iff.mpr (hends.trans hfrom) hadmits.1
    | arbitrary named normal =>
        cases named with
        | none => exact hends
        | some named => exact Version.not_lt_iff.mpr hfrom (hadmits named rfl ▸ hends)
    | notEqual _ | notEqualSeries _ | atLeast _ | greater _ => exact hends
  · by_contra hends
    obtain ⟨version, hfrom, hadmits⟩ := exists_admits_of_not_endsBefore specifier hends
    exact hnone version hfrom hadmits

end Floor

section Limit

def zero : Release :=
  ⟨0, [0], List.cons_ne_nil _ _⟩

def one : Release :=
  ⟨0, [1], List.cons_ne_nil _ _⟩

/-- The first development release of a release. -/
def firstDev (release : Release) : Version :=
  { release.version with dev := some 0 }

/-- `==` with `.*` for the limit. -/
def IsSeriesOf (specifier : Specifier) (limit : Release) : Prop :=
  ∃ series : Release, specifier = equalSeries series ∧ series.key = limit.key

variable {limit : Release} {version : Version}

theorem firstDev_lt (release : Release) : firstDev release < release.version := by
  rw [Version.lt_iff_of_isPublic release.isPublic_version]
  have hpre : (toLex (0, 0) : ℕ ×ₗ ℕ) < toLex (4, 0) := by decide
  exact Prod.Lex.toLex_lt_toLex.mpr (.inr ⟨rfl, Prod.Lex.toLex_lt_toLex.mpr (.inl hpre)⟩)

theorem zero_lt_limit (hlimit : one.key ≤ limit.key) : zero.version < limit.version :=
  lt_floor_of_release (lt_of_lt_of_le (by decide) hlimit)

theorem preKey_lt {version : Version} (hpre : version.preKey ≠ toLex (4, 0)) :
    version.preKey < toLex (3, (version.pre.elim 0 Prod.snd) + 1) := by
  obtain ⟨release, pre, post, dev, localParts⟩ := version
  cases pre with
  | some pre =>
      obtain ⟨phase, number⟩ := pre
      refine Prod.Lex.toLex_lt_toLex.mpr ?_
      cases phase with
      | alpha => exact .inl (Nat.lt_of_sub_eq_succ rfl : 1 < 3)
      | beta => exact .inl (Nat.lt_of_sub_eq_succ rfl : 2 < 3)
      | candidate => exact .inr ⟨rfl, number.lt_succ_self⟩
  | none =>
      cases post with
      | some number => exact absurd rfl hpre
      | none =>
          cases dev with
          | some number => exact Prod.Lex.toLex_lt_toLex.mpr (.inl (Nat.succ_pos 2))
          | none => exact absurd rfl hpre

theorem preKey_ne_of_lt (hlt : version.publicKey < limit.version.publicKey)
    (hrelease : version.release.key = limit.key) : version.preKey ≠ toLex (4, 0) := by
  have hlimit : limit.version.publicKey =
      toLex (limit.key, toLex (toLex (4, 0), toLex (0, ⊤))) := rfl
  intro hpre
  rw [hlimit, Version.publicKey, hrelease, hpre] at hlt
  obtain ⟨release, pre, post, dev, localParts⟩ := version
  simp only [Prod.Lex.toLex_lt_toLex, lt_irrefl, false_or, true_and] at hlt
  rcases hlt with hpost | ⟨hpost, hdev⟩
  · exact Nat.not_lt_zero _ hpost
  · cases post with
    | some number => exact Nat.succ_ne_zero number hpost
    | none =>
        cases dev with
        | none => exact lt_irrefl _ hdev
        | some number =>
            have hfirst := congrArg (fun key => (ofLex key).1) hpre
            cases pre with
            | none => exact absurd hfirst (by decide : (0 : ℕ) ≠ 4)
            | some pre =>
                obtain ⟨phase, number⟩ := pre
                cases phase <;> cases hfirst

/-- After a version before the limit there is another one, public and no post-release. -/
theorem exists_after (hlt : version < limit.version) :
    ∃ after : Version, version.publicKey < after.publicKey ∧ after < limit.version ∧
      after.IsPublic ∧ ¬ after.IsPostrelease := by
  rw [Version.lt_iff_of_isPublic limit.isPublic_version] at hlt
  rcases (Version.release_le_of_publicKey hlt.le).lt_or_eq with hrelease | hrelease
  · obtain ⟨middle, hfirst, hsecond⟩ := Release.exists_key_between hrelease
    exact ⟨middle.version, Version.publicKey_lt_of_release hfirst, lt_floor_of_release hsecond,
      rfl, nofun⟩
  · refine ⟨{ version with
      pre := some (.candidate, (version.pre.elim 0 Prod.snd) + 1)
      post := none
      dev := none
      localParts := none }, ?_, ?_, rfl, nofun⟩
    · refine Prod.Lex.toLex_lt_toLex.mpr (.inr ⟨rfl, Prod.Lex.toLex_lt_toLex.mpr (.inl ?_)⟩)
      exact preKey_lt (preKey_ne_of_lt hlt hrelease)
    · rw [Version.lt_iff_of_isPublic limit.isPublic_version]
      refine Prod.Lex.toLex_lt_toLex.mpr (.inr ⟨hrelease, Prod.Lex.toLex_lt_toLex.mpr (.inl ?_)⟩)
      exact Prod.Lex.toLex_lt_toLex.mpr (.inl (Nat.lt_succ_self 3))

theorem exists_admits_of_not_startsFrom (hlimit : one.key ≤ limit.key) (specifier : Specifier)
    (hstarts : ¬ specifier.StartsFrom limit) (hadmits : specifier.Admits version) :
    ∃ version, specifier.Admits version ∧ version < limit.version := by
  have hzero := zero_lt_limit hlimit
  have hdev : firstDev one < limit.version := by
    refine (firstDev_lt one).trans_le (floor_le_iff.mpr ?_)
    exact not_lt.mp fun hlt => hlimit.not_gt (Release.publicKey_lt_iff.mp hlt)
  cases specifier with
  | equalSeries series =>
      exact ⟨series.version, Release.has_self, lt_floor_of_release (not_le.mp hstarts)⟩
  | equal named =>
      refine ⟨named, equals_self named, ?_⟩
      by_contra hlt
      exact hstarts (Version.not_lt_iff.mp hlt)
  | compatible named long =>
      refine ⟨named.toVersion, ⟨le_rfl, has_seriesOf named long⟩, ?_⟩
      by_contra hlt
      exact hstarts (Version.not_lt_iff.mp hlt)
  | atLeast named =>
      refine ⟨named.toVersion, le_refl named.publicKey, ?_⟩
      by_contra hlt
      exact hstarts (Version.not_lt_iff.mp hlt)
  | greater named =>
      have hlt : named.toVersion < limit.version := by
        by_contra hlt
        exact hstarts (Version.not_lt_iff.mp hlt)
      obtain ⟨after, hafter, hbefore, hpublic, hpost⟩ := exists_after hlt
      refine ⟨after, ⟨?_, fun h => absurd h hpost, fun h => absurd hpublic h⟩, hbefore⟩
      exact (Version.lt_iff_of_isPublic hpublic).mpr hafter
  | arbitrary named normal =>
      cases named with
      | none => exact ⟨zero.version, nofun, hzero⟩
      | some named =>
          refine ⟨named, fun other hother => Option.some.inj hother, ?_⟩
          by_contra hlt
          exact hstarts (Version.not_lt_iff.mp hlt)
  | notEqual named =>
      by_cases hequals : Equals named zero.version
      · refine ⟨firstDev one, fun hequals' => ?_, hdev⟩
        have hlt : zero.version.publicKey < (firstDev one).publicKey :=
          Version.publicKey_lt_of_release (by decide)
        exact hlt.ne (hequals.1.trans hequals'.1.symm)
      · exact ⟨zero.version, hequals, hzero⟩
  | notEqualSeries series =>
      by_cases hhas : series.Has zero
      · refine ⟨firstDev one, fun hhas' => ?_, hdev⟩
        have hfirst := hhas.2 0 (List.length_pos_iff.mpr series.nonempty)
        have hsecond := hhas'.2 0 (List.length_pos_iff.mpr series.nonempty)
        cases hfirst.trans hsecond.symm
      · exact ⟨zero.version, hhas, hzero⟩
  | atMost named =>
      by_cases hnamed : named.toVersion < limit.version
      · exact ⟨named.toVersion, le_refl named.publicKey, hnamed⟩
      · have hbelow := (Version.lt_iff_of_isPublic limit.isPublic_version).mp hzero
        have habove := floor_le_iff.mp (Version.not_lt_iff.mp hnamed)
        exact ⟨zero.version, hbelow.le.trans habove, hzero⟩
  | less named =>
      by_cases hversion : version < limit.version
      · exact ⟨version, hadmits, hversion⟩
      · refine ⟨zero.version, ⟨?_, fun hpre => absurd hpre (not_isPrerelease_version zero)⟩, hzero⟩
        exact hzero.trans ((Version.not_lt_iff.mp hversion).trans_lt hadmits.1)

/-- A specifier that starts from the limit admits some version, and none before the limit, but for
the pre-releases of the limit that its series has. -/
theorem startsFrom_iff (hlimit : one.key ≤ limit.key) (specifier : Specifier) :
    specifier.StartsFrom limit ↔ specifier.IsSeriesOf limit ∨
      (∃ version, specifier.Admits version) ∧
        ∀ version, specifier.Admits version → limit.version ≤ version := by
  constructor
  · intro hstarts
    cases specifier with
    | equalSeries series =>
        rcases hstarts.lt_or_eq with hlt | heq
        · refine .inr ⟨⟨series.version, Release.has_self⟩, fun version hhas => ?_⟩
          exact floor_le_of_release (hlt.trans_le (Release.key_le_of_has hhas))
        · exact .inl ⟨series, rfl, heq.symm⟩
    | equal named =>
        refine .inr ⟨⟨named, equals_self named⟩, fun version hequals => ?_⟩
        exact floor_le_iff.mpr ((floor_le_iff.mp hstarts).trans_eq hequals.1.symm)
    | compatible named long =>
        refine .inr ⟨⟨named.toVersion, le_rfl, has_seriesOf named long⟩, fun version hadmits => ?_⟩
        exact floor_le_iff.mpr ((floor_le_iff.mp hstarts).trans hadmits.1)
    | atLeast named =>
        refine .inr ⟨⟨named.toVersion, le_rfl⟩, fun version hadmits => ?_⟩
        exact floor_le_iff.mpr ((floor_le_iff.mp hstarts).trans hadmits)
    | greater named =>
        obtain ⟨later, -, hnamed⟩ := Release.exists_later limit named.release
        have hlt := Release.key_lt_of_epoch_lt hnamed
        refine .inr ⟨⟨later.version, ?_, fun _ _ => hlt.ne', fun _ => hlt.ne'⟩,
          fun version hadmits => hstarts.trans hadmits.1.le⟩
        exact (Version.lt_iff_of_isPublic later.isPublic_version).mpr
          (Version.publicKey_lt_of_release hlt)
    | arbitrary named normal =>
        cases named with
        | none => exact hstarts.elim
        | some named =>
            exact .inr ⟨⟨named, fun other hother => Option.some.inj hother⟩,
              fun version hadmits => hadmits named rfl ▸ hstarts⟩
    | notEqual _ | notEqualSeries _ | atMost _ | less _ => exact hstarts.elim
  · rintro (⟨series, rfl, hseries⟩ | ⟨⟨some, hsome⟩, hall⟩)
    · exact hseries.ge
    · by_contra hstarts
      obtain ⟨version, hadmits, hlt⟩ :=
        exists_admits_of_not_startsFrom hlimit specifier hstarts hsome
      exact Version.not_lt_iff.mpr (hall version hadmits) hlt

end Limit

end Specifier

end Versions
