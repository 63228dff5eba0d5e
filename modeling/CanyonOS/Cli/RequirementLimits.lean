import CanyonOS.Lib.Versions
import Mathlib.Tactic.FinCases

/-!
# Requirements outside of the supported versions

A deploy stops at a requirement that only allows versions of a base package older than the ones
CanyonOS supports, and warns of one that only allows versions newer than the tested ones.
-/

namespace CanyonOS.RequirementLimits

open Versions

abbrev Text := List Char

structure Requirement where
  name : Text
  specifiers : List Specifier

/-- `name>=floor` -/
structure Base where
  name : Text
  floor : Release
  text : Text

def baseAgentRequirements : List Base := [
  ⟨"grpcio".toList, ⟨0, [1, 76, 0], List.cons_ne_nil _ _⟩, "grpcio>=1.76.0".toList⟩,
  ⟨"protobuf".toList, ⟨0, [6, 31, 1], List.cons_ne_nil _ _⟩, "protobuf>=6.31.1".toList⟩,
  ⟨"redis".toList, ⟨0, [3, 5], List.cons_ne_nil _ _⟩, "redis>=3.5".toList⟩]

structure Tested where
  name : Text
  major : ℕ

def testedMajorVersions : List Tested := [
  ⟨"grpcio".toList, 1⟩,
  ⟨"protobuf".toList, 6⟩,
  ⟨"redis".toList, 8⟩]

/-- `Version(str(major + 1))` -/
def Tested.limit (tested : Tested) : Release :=
  ⟨0, [tested.major + 1], List.cons_ne_nil _ _⟩

def Tested.text (tested : Tested) : Text :=
  tested.name ++ '<' :: (toString (tested.major + 1)).toList

/-- The release that is written without the epoch. -/
def noEpoch (release : Release) : Release :=
  { release with epoch := 0 }

/-- `_below_supported_version` -/
def belowSupportedVersion (specifier : Specifier) (floor : Release) : Bool :=
  match specifier with
  | .equalSeries series => (noEpoch series.next).version ≤ floor.version
  | .equal version | .arbitrary (some version) _ => version < floor.version
  | .less version => version.toVersion ≤ floor.version
  | .atMost version => version.toVersion < floor.version
  | .compatible version long =>
      (noEpoch (Specifier.seriesOf version long).next).version ≤ floor.version
  -- no version is read from the text
  | .notEqualSeries _ | .arbitrary none _ => false
  | .notEqual _ | .atLeast _ | .greater _ => false

/-- `_above_tested_version` -/
def aboveTestedVersion (specifier : Specifier) (limit : Release) : Bool :=
  match specifier with
  | .equalSeries series => limit.version ≤ series.version
  | .equal version | .arbitrary (some version) _ => limit.version ≤ version
  | .atLeast version | .greater version | .compatible version _ =>
      limit.version ≤ version.toVersion
  | .notEqualSeries _ | .arbitrary none _ => false
  | .notEqual _ | .less _ | .atMost _ => false

def lower (name : Text) : Text :=
  name.map Char.toLower

section Parse

-- how a requirement is read; `none` for an invalid one
variable (parse : Text → Option Requirement)

def tooOldRequirements (requirements : List Text) : List (Text × Text) :=
  requirements.filterMap fun requirement =>
    (parse requirement).bind fun parsed =>
      (baseAgentRequirements.find? fun base => base.name = lower parsed.name).bind fun base =>
        if parsed.specifiers.any fun specifier => belowSupportedVersion specifier base.floor then
          some (requirement, base.text)
        else none

def tooNewRequirements (requirements : List Text) : List (Text × Text) :=
  requirements.filterMap fun requirement =>
    (parse requirement).bind fun parsed =>
      (testedMajorVersions.find? fun tested => tested.name = lower parsed.name).bind fun tested =>
        if parsed.specifiers.any fun specifier => aboveTestedVersion specifier tested.limit then
          some (requirement, tested.text)
        else none

end Parse

/-! ### The claim -/

section Claim

-- whether pre-releases are looked at for a requirement
variable (prereleases : List Specifier → Bool) (specifiers : List Specifier)

def Allowed (version : Version) : Prop :=
  (∀ specifier ∈ specifiers, specifier.Allows version) ∧
    (version.IsPrerelease → prereleases specifiers)

/-- Something is allowed, and nothing from the floor on. -/
def OnlyBelow (floor : Release) : Prop :=
  (∃ version, Allowed prereleases specifiers version) ∧
    ∀ version, Allowed prereleases specifiers version → version < floor.version

/-- Something is allowed, and nothing below the limit. -/
def OnlyFrom (limit : Release) : Prop :=
  (∃ version, Allowed prereleases specifiers version) ∧
    ∀ version, Allowed prereleases specifiers version → limit.version ≤ version

/-- Each requirement that can be read is reported exactly when it allows something, and nothing of
what is supported or tested. -/
def FollowsWhatIsAllowed (parse : Text → Option Requirement) (requirements : List Text) : Prop :=
  ∀ requirement ∈ requirements, ∀ parsed, parse requirement = some parsed →
    (∀ base ∈ baseAgentRequirements,
      (requirement, base.text) ∈ tooOldRequirements parse requirements ↔
        base.name = lower parsed.name ∧ OnlyBelow prereleases parsed.specifiers base.floor) ∧
    ∀ tested ∈ testedMajorVersions,
      (requirement, tested.text) ∈ tooNewRequirements parse requirements ↔
        tested.name = lower parsed.name ∧ OnlyFrom prereleases parsed.specifiers tested.limit

/-- A `~=` or a `==` with `.*` of an epoch, whose next release would not be above the floor without
the epoch. -/
def LosesEpoch (specifier : Specifier) (floor : Release) : Prop :=
  match specifier with
  | .equalSeries series => 0 < series.epoch ∧ (noEpoch series.next).key ≤ floor.key
  | .compatible version long => 0 < version.release.epoch ∧
      (noEpoch (Specifier.seriesOf version long).next).key ≤ floor.key
  | _ => False

/-- The specifier alone excludes everything from the floor on. -/
def ExcludesFrom (specifier : Specifier) (floor : Release) : Prop :=
  ∀ version, floor.version ≤ version → ¬ specifier.Admits version

/-- The specifier alone admits something and nothing below the limit, or is a `==` with `.*` for
the limit. -/
def AdmitsFrom (specifier : Specifier) (limit : Release) : Prop :=
  specifier.IsSeriesOf limit ∨ (∃ version, specifier.Admits version) ∧
    ∀ version, specifier.Admits version → limit.version ≤ version

/-- No epoch is lost, and the specifiers together exclude everything from the floor on, but not
everything, exactly when one of them alone excludes everything from the floor on. -/
def DecidedBelow (floor : Release) : Prop :=
  (∀ specifier ∈ specifiers, ¬ LosesEpoch specifier floor) ∧
    ((∃ specifier ∈ specifiers, ExcludesFrom specifier floor) →
      ∃ version, Allowed prereleases specifiers version) ∧
        (OnlyBelow prereleases specifiers floor →
          ∃ specifier ∈ specifiers, ExcludesFrom specifier floor)

def DecidedFrom (limit : Release) : Prop :=
  ((∃ specifier ∈ specifiers, AdmitsFrom specifier limit) →
    ∃ version, Allowed prereleases specifiers version) ∧
  (OnlyFrom prereleases specifiers limit →
    ∃ specifier ∈ specifiers, AdmitsFrom specifier limit) ∧
  -- no pre-release of the limit is allowed
  ∀ specifier ∈ specifiers, specifier.IsSeriesOf limit →
    ∀ version, Allowed prereleases specifiers version →
      ¬ (version < limit.version ∧ version.release.key = limit.key)

def HoldsWhen (parse : Text → Option Requirement) (requirements : List Text) : Prop :=
  ∀ requirement ∈ requirements, ∀ parsed, parse requirement = some parsed →
    (∀ base ∈ baseAgentRequirements, base.name = lower parsed.name →
      DecidedBelow prereleases parsed.specifiers base.floor) ∧
    ∀ tested ∈ testedMajorVersions, tested.name = lower parsed.name →
      DecidedFrom prereleases parsed.specifiers tested.limit

end Claim

/-! ### One specifier -/

section Specifiers

variable {specifier : Specifier} {floor limit : Release}

theorem version_le_iff {first second : Release} :
    first.version ≤ second.version ↔ first.key ≤ second.key := by
  rw [Specifier.floor_le_iff, ← not_lt, Release.publicKey_lt_iff, not_lt]

theorem noEpoch_of_zero {release : Release} (hepoch : release.epoch = 0) :
    noEpoch release = release := by
  rw [noEpoch, ← hepoch]

theorem belowSupportedVersion_iff (hfloor : floor.epoch = 0) :
    belowSupportedVersion specifier floor = true ↔
      specifier.EndsBefore floor ∨ LosesEpoch specifier floor := by
  have hseries (series : Release) :
      (noEpoch series.next).key ≤ floor.key ↔
        series.next.key ≤ floor.key ∨
          0 < series.epoch ∧ (noEpoch series.next).key ≤ floor.key := by
    rcases Nat.eq_zero_or_pos series.epoch with hzero | hpos
    · rw [@noEpoch_of_zero series.next hzero, hzero]
      simp
    · have hnot : ¬ series.next.key ≤ floor.key := by
        intro hle
        have hepoch : series.epoch ≤ floor.epoch :=
          @Release.epoch_le_of_key_le series.next floor hle
        omega
      simp [hpos, hnot]
  cases specifier with
  | equalSeries series =>
      rw [belowSupportedVersion, decide_eq_true_eq, version_le_iff]
      exact hseries series
  | compatible version long =>
      rw [belowSupportedVersion, decide_eq_true_eq, version_le_iff]
      exact hseries (Specifier.seriesOf version long)
  | arbitrary version normal =>
      cases version with
      | none => exact ⟨nofun, fun h => h.elim False.elim False.elim⟩
      | some version => simp [belowSupportedVersion, Specifier.EndsBefore, LosesEpoch]
  | equal _ | notEqual _ | notEqualSeries _ | atMost _ | atLeast _ | less _ | greater _ =>
      simp [belowSupportedVersion, Specifier.EndsBefore, LosesEpoch]

theorem aboveTestedVersion_iff :
    aboveTestedVersion specifier limit = true ↔ specifier.StartsFrom limit := by
  cases specifier with
  | equalSeries series =>
      rw [aboveTestedVersion, decide_eq_true_eq, version_le_iff]
      exact Iff.rfl
  | arbitrary version normal =>
      cases version with
      | none => exact ⟨nofun, False.elim⟩
      | some version => simp [aboveTestedVersion, Specifier.StartsFrom]
  | equal _ | compatible _ _ | notEqual _ | notEqualSeries _ | atMost _ | atLeast _ | less _
  | greater _ => simp [aboveTestedVersion, Specifier.StartsFrom]

/-- Whatever is allowed by a specifier whose epoch is lost is above the floor. -/
theorem floor_le_of_losesEpoch (hfloor : floor.epoch = 0) (hloses : LosesEpoch specifier floor)
    {version : Version} (hallows : specifier.Allows version) : floor.version ≤ version := by
  have hseries (series : Release) (hpos : 0 < series.epoch) (hhas : series.Has version.release) :
      floor.version ≤ version := by
    apply Specifier.floor_le_of_release
    apply Release.key_lt_of_epoch_lt
    rw [hfloor, hhas.1]
    exact hpos
  cases specifier with
  | equalSeries series => exact hseries series hloses.1 hallows
  | compatible named long => exact hseries (Specifier.seriesOf named long) hloses.1 hallows.2
  | _ => exact hloses.elim

end Specifiers

/-! ### A requirement -/

section Judged

variable {prereleases : List Specifier → Bool} {specifiers : List Specifier} {floor limit : Release}

theorem below_iff (hfloor : floor.epoch = 0) :
    ((specifiers.any fun specifier => belowSupportedVersion specifier floor) = true ↔
      OnlyBelow prereleases specifiers floor) ↔ DecidedBelow prereleases specifiers floor := by
  rw [List.any_eq_true]
  simp only [belowSupportedVersion_iff hfloor, Specifier.endsBefore_iff]
  constructor
  · intro hiff
    have hloses : ∀ specifier ∈ specifiers, ¬ LosesEpoch specifier floor := by
      intro specifier hmem hloses
      obtain ⟨⟨version, hallowed⟩, hbelow⟩ := hiff.mp ⟨specifier, hmem, .inr hloses⟩
      have hfrom := floor_le_of_losesEpoch hfloor hloses (hallowed.1 specifier hmem)
      exact Version.not_lt_iff.mpr hfrom (hbelow version hallowed)
    refine ⟨hloses, fun ⟨specifier, hmem, hexcludes⟩ => ?_, fun honly => ?_⟩
    · exact (hiff.mp ⟨specifier, hmem, .inl hexcludes⟩).1
    · obtain ⟨specifier, hmem, hbelow⟩ := hiff.mpr honly
      exact ⟨specifier, hmem, hbelow.resolve_right (hloses specifier hmem)⟩
  · rintro ⟨hloses, hsome, halone⟩
    constructor
    · rintro ⟨specifier, hmem, hbelow⟩
      have hexcludes := hbelow.resolve_right (hloses specifier hmem)
      refine ⟨hsome ⟨specifier, hmem, hexcludes⟩, fun version hallowed => ?_⟩
      by_contra hfrom
      exact hexcludes version (Version.not_lt_iff.mp hfrom)
        (Specifier.admits_of_allows (hallowed.1 specifier hmem))
    · intro honly
      obtain ⟨specifier, hmem, hexcludes⟩ := halone honly
      exact ⟨specifier, hmem, .inl hexcludes⟩

theorem above_iff (hlimit : Specifier.one.key ≤ limit.key) :
    ((specifiers.any fun specifier => aboveTestedVersion specifier limit) = true ↔
      OnlyFrom prereleases specifiers limit) ↔ DecidedFrom prereleases specifiers limit := by
  rw [List.any_eq_true]
  simp only [aboveTestedVersion_iff, Specifier.startsFrom_iff hlimit]
  constructor
  · intro hiff
    refine ⟨fun hadmits => (hiff.mp hadmits).1, fun honly => hiff.mpr honly, ?_⟩
    rintro specifier hmem hseries version hallowed ⟨hlt, -⟩
    have honly := hiff.mp ⟨specifier, hmem, .inl hseries⟩
    exact Version.not_lt_iff.mpr (honly.2 version hallowed) hlt
  · rintro ⟨hsome, halone, hprerelease⟩
    refine ⟨fun hadmits => ⟨hsome hadmits, fun version hallowed => ?_⟩, halone⟩
    obtain ⟨specifier, hmem, hseries | ⟨-, hfrom⟩⟩ := hadmits
    · by_contra hlt
      have hbefore : version < limit.version := by
        by_contra hnot
        exact hlt (Version.not_lt_iff.mp hnot)
      refine hprerelease specifier hmem hseries version hallowed ⟨hbefore, le_antisymm ?_ ?_⟩
      · have hpublic := (Version.lt_iff_of_isPublic limit.isPublic_version).mp hbefore
        exact Version.release_le_of_publicKey hpublic.le
      · obtain ⟨series, rfl, hkey⟩ := hseries
        exact hkey.symm.trans_le (Release.key_le_of_has (hallowed.1 _ hmem))
    · exact hfrom version (Specifier.admits_of_allows (hallowed.1 specifier hmem))

end Judged

/-! ### The lists -/

theorem find_base_iff {name : Text} {base : Base} :
    baseAgentRequirements.find? (fun base => base.name = name) = some base ↔
      base ∈ baseAgentRequirements ∧ base.name = name := by
  constructor
  · intro hfind
    exact ⟨List.mem_of_find?_eq_some hfind, by simpa using List.find?_some hfind⟩
  · rintro ⟨hmem, rfl⟩
    fin_cases hmem <;> rfl

theorem find_tested_iff {name : Text} {tested : Tested} :
    testedMajorVersions.find? (fun tested => tested.name = name) = some tested ↔
      tested ∈ testedMajorVersions ∧ tested.name = name := by
  constructor
  · intro hfind
    exact ⟨List.mem_of_find?_eq_some hfind, by simpa using List.find?_some hfind⟩
  · rintro ⟨hmem, rfl⟩
    fin_cases hmem <;> rfl

theorem base_eq_of_text {first second : Base} (hfirst : first ∈ baseAgentRequirements)
    (hsecond : second ∈ baseAgentRequirements) (htext : first.text = second.text) :
    first = second := by
  fin_cases hfirst <;> fin_cases hsecond <;> first | rfl | exact absurd htext (by decide)

theorem tested_eq_of_text {first second : Tested} (hfirst : first ∈ testedMajorVersions)
    (hsecond : second ∈ testedMajorVersions) (htext : first.text = second.text) :
    first = second := by
  fin_cases hfirst <;> fin_cases hsecond <;> first | rfl | exact absurd htext (by decide)

section Lists

variable {prereleases : List Specifier → Bool} {parse : Text → Option Requirement}
  {requirements : List Text} {requirement : Text} {parsed : Requirement}

theorem mem_tooOldRequirements (hmem : requirement ∈ requirements)
    (hparse : parse requirement = some parsed) {base : Base}
    (hbase : base ∈ baseAgentRequirements) :
    (requirement, base.text) ∈ tooOldRequirements parse requirements ↔
      base.name = lower parsed.name ∧
        (parsed.specifiers.any fun specifier =>
          belowSupportedVersion specifier base.floor) = true := by
  rw [tooOldRequirements, List.mem_filterMap]
  constructor
  · rintro ⟨other, -, hjudged⟩
    simp only [Option.bind_eq_some_iff, Option.ite_none_right_eq_some, Option.some.injEq,
      Prod.mk.injEq, find_base_iff] at hjudged
    obtain ⟨parsed', hparse', found, ⟨hfound, hname⟩, hany, rfl, htext⟩ := hjudged
    cases hparse.symm.trans hparse'
    cases base_eq_of_text hfound hbase htext
    exact ⟨hname, hany⟩
  · rintro ⟨hname, hany⟩
    refine ⟨requirement, hmem, ?_⟩
    rw [hparse, Option.bind_some, find_base_iff.mpr ⟨hbase, hname⟩, Option.bind_some, if_pos hany]

theorem mem_tooNewRequirements (hmem : requirement ∈ requirements)
    (hparse : parse requirement = some parsed) {tested : Tested}
    (htested : tested ∈ testedMajorVersions) :
    (requirement, tested.text) ∈ tooNewRequirements parse requirements ↔
      tested.name = lower parsed.name ∧
        (parsed.specifiers.any fun specifier =>
          aboveTestedVersion specifier tested.limit) = true := by
  rw [tooNewRequirements, List.mem_filterMap]
  constructor
  · rintro ⟨other, -, hjudged⟩
    simp only [Option.bind_eq_some_iff, Option.ite_none_right_eq_some, Option.some.injEq,
      Prod.mk.injEq, find_tested_iff] at hjudged
    obtain ⟨parsed', hparse', found, ⟨hfound, hname⟩, hany, rfl, htext⟩ := hjudged
    cases hparse.symm.trans hparse'
    cases tested_eq_of_text hfound htested htext
    exact ⟨hname, hany⟩
  · rintro ⟨hname, hany⟩
    refine ⟨requirement, hmem, ?_⟩
    rw [hparse, Option.bind_some, find_tested_iff.mpr ⟨htested, hname⟩, Option.bind_some,
      if_pos hany]

theorem epoch_floor {base : Base} (hbase : base ∈ baseAgentRequirements) :
    base.floor.epoch = 0 := by
  fin_cases hbase <;> rfl

theorem one_le_limit (tested : Tested) : Specifier.one.key ≤ tested.limit.key := by
  refine not_lt.mp fun hlt => ?_
  have hbefore : Before [tested.major + 1] [1] :=
    (@Release.key_lt_key_iff Specifier.one tested.limit rfl).mp hlt
  rcases before_cons.mp hbefore with hless | ⟨-, i, -, hless⟩
  · omega
  · exact Nat.not_lt_zero _ hless

end Lists

/-- Whichever requirements want pre-releases looked at. -/
theorem followsWhatIsAllowed_iff (prereleases : List Specifier → Bool)
    (parse : Text → Option Requirement) (requirements : List Text) :
    FollowsWhatIsAllowed prereleases parse requirements ↔
      HoldsWhen prereleases parse requirements := by
  refine forall₂_congr fun requirement hmem => forall₂_congr fun parsed hparse => and_congr ?_ ?_
  · refine forall₂_congr fun base hbase => ?_
    rw [mem_tooOldRequirements hmem hparse hbase, and_congr_right_iff]
    exact forall_congr' fun _ => below_iff (epoch_floor hbase)
  · refine forall₂_congr fun tested htested => ?_
    rw [mem_tooNewRequirements hmem hparse htested, and_congr_right_iff]
    exact forall_congr' fun _ => above_iff (one_le_limit tested)

/-- One specifier that is no `===` has nothing to decide together with others. -/
theorem excludesFrom_of_onlyBelow {specifier : Specifier} {floor : Release}
    (honly : OnlyBelow (fun _ => true) [specifier] floor) : ExcludesFrom specifier floor := by
  obtain ⟨⟨version, hallowed, -⟩, hbelow⟩ := honly
  rw [List.forall_mem_singleton] at hallowed
  intro other hfrom hadmits
  refine Version.not_lt_iff.mpr hfrom
    (hbelow other ⟨List.forall_mem_singleton.mpr ?_, fun _ => rfl⟩)
  cases specifier with
  | arbitrary named normal =>
      obtain ⟨hnormal, rfl⟩ := hallowed
      exact ⟨hnormal, congrArg some (hadmits version rfl).symm⟩
  | _ => exact hadmits

/-! ### An epoch -/

def redisVersion : PublicVersion where
  toVersion := (⟨1, [2, 0], List.cons_ne_nil _ _⟩ : Release).version
  isPublic := rfl

def compatible : Specifier :=
  .compatible redisVersion (List.cons_ne_nil _ _)

def requirementText : Text :=
  "redis~=1!2.0".toList

def parseRedis (text : Text) : Option Requirement :=
  if text = requirementText then some ⟨"redis".toList, [compatible]⟩ else none

/-- A release of epoch 1 comes after every release without an epoch, and is reported as too old. -/
theorem not_followsWhatIsAllowed_epoch :
    ¬ FollowsWhatIsAllowed (fun _ => false) parseRedis [requirementText] := by
  intro hfollows
  have hparse : parseRedis requirementText = some ⟨"redis".toList, [compatible]⟩ := if_pos rfl
  have hredis : baseAgentRequirements[2] ∈ baseAgentRequirements := List.getElem_mem _
  have hbelow : belowSupportedVersion compatible baseAgentRequirements[2].floor = true := by decide
  have hreported := (mem_tooOldRequirements (List.mem_singleton_self _) hparse hredis).mpr
    ⟨by decide, List.any_eq_true.mpr ⟨compatible, List.mem_singleton_self _, hbelow⟩⟩
  obtain ⟨-, ⟨version, hallowed⟩, honly⟩ :=
    ((hfollows _ (List.mem_singleton_self _) _ hparse).1 _ hredis).mp hreported
  have hloses : LosesEpoch compatible baseAgentRequirements[2].floor := ⟨by decide, by decide⟩
  exact Version.not_lt_iff.mpr
    (floor_le_of_losesEpoch rfl hloses (hallowed.1 _ (List.mem_singleton_self _)))
    (honly version hallowed)

end CanyonOS.RequirementLimits
