import CanyonOS.Reconciler.SmoothPass

/-!
# Passes that settle

From any records, one smooth pass after the other, every agent comes to run just the replicas it is
to have, and every other record but a lost one goes.
-/

namespace CanyonOS.Reconciler.Passes

open Raising

variable {AgentName LaunchId ReplicaId : Type}

/-! ### What passes lead to -/

section States

variable [DecidableEq AgentName]

/-- A replica that drains and is not among its agent's instances, which no pass lists. -/
structure Lost (agentOf : ReplicaId → AgentName) (specs : List (AgentSpec AgentName))
    (record : Record LaunchId ReplicaId) : Prop where
  finished : record.createdAt.isSome = true
  configured : agentOf record.replicaId ∈ specs.map AgentSpec.name
  unlisted : record.isInstance = false
  drains : record.drainingAt.isSome = true

/-- Every agent has enough replicas, and a replica that does not drain can only be one too many. -/
structure Level (agentOf : ReplicaId → AgentName) (specs : List (AgentSpec AgentName))
    (fleet : Fleet LaunchId ReplicaId) : Prop where
  finished : ∀ record ∈ fleet.records, record.createdAt.isSome = true
  listed : ∀ record ∈ fleet.records, record.drainingAt = none →
    record.isInstance = true ∧ agentOf record.replicaId ∈ specs.map AgentSpec.name
  unrequested : ∀ record ∈ fleet.records, record.drainingAt = none →
    record.replicaId ∉ fleet.replaceRequests
  enough : ∀ spec ∈ specs, spec.replicas ≤ (fleet.staying agentOf spec.name).length

/-- Nor is one too many. -/
structure Balanced (agentOf : ReplicaId → AgentName) (specs : List (AgentSpec AgentName))
    (fleet : Fleet LaunchId ReplicaId) : Prop extends Level agentOf specs fleet where
  even : ∀ spec ∈ specs, (fleet.staying agentOf spec.name).length = spec.replicas

/-- Nor does any drain. -/
structure Settled (agentOf : ReplicaId → AgentName) (specs : List (AgentSpec AgentName))
    (fleet : Fleet LaunchId ReplicaId) : Prop extends Balanced agentOf specs fleet where
  stays : ∀ record ∈ fleet.records, record.drainingAt = none

/-- A replica that is not lost has drained since the time at the latest. -/
def DrainsBy (agentOf : ReplicaId → AgentName) (specs : List (AgentSpec AgentName)) (time : ℚ)
    (fleet : Fleet LaunchId ReplicaId) : Prop :=
  ∀ record ∈ fleet.records, ∀ drainingAt ∈ record.drainingAt,
    Lost agentOf specs record ∨ drainingAt ≤ time

end States

/-! ### What a smooth pass makes of a record -/

section Kept

variable [DecidableEq AgentName] [LinearOrder ReplicaId] {agentOf : ReplicaId → AgentName}
  {answers : Answers agentOf LaunchId} {start after : Fleet LaunchId ReplicaId}
  {before record : Record LaunchId ReplicaId}

omit [LinearOrder ReplicaId] in
theorem isSome_specOf_iff {agentName : AgentName} :
    (specOf answers agentName).isSome = true ↔
      agentName ∈ answers.agentSpecs.map AgentSpec.name := by
  constructor
  · intro hsome
    obtain ⟨spec, hspec⟩ := Option.isSome_iff_exists.mp hsome
    obtain ⟨hmem, hname⟩ := mem_of_specOf hspec
    exact List.mem_map.mpr ⟨spec, hmem, hname⟩
  · intro hmem
    obtain ⟨spec, hspec⟩ := exists_specOf hmem
    rw [hspec]
    rfl

omit [DecidableEq AgentName] [LinearOrder ReplicaId] in
theorem eq_of_name {first second : AgentSpec AgentName} (hfirst : first ∈ answers.agentSpecs)
    (hsecond : second ∈ answers.agentSpecs) (hname : first.name = second.name) : first = second :=
  List.inj_on_of_nodup_map answers.names_nodup hfirst hsecond hname

omit [LinearOrder ReplicaId] in
theorem specOf_of_mem {spec : AgentSpec AgentName} (hspec : spec ∈ answers.agentSpecs) :
    specOf answers spec.name = some spec := by
  obtain ⟨found, hfound⟩ := exists_specOf (List.mem_map_of_mem hspec)
  obtain ⟨hmem, hname⟩ := mem_of_specOf hfound
  rw [hfound, eq_of_name hmem hspec hname]

/-- There is a reason to drain the record. -/
def Unwanted (answers : Answers agentOf LaunchId) (start : Fleet LaunchId ReplicaId)
    (record : Record LaunchId ReplicaId) : Prop :=
  ∀ spec, specOf answers (agentOf record.replicaId) = some spec → record.isInstance = true ∧
    (record.drainingAt.isSome = true ∨ record.replicaId ∈ start.replaceRequests ∨
      record.replicaId ∈ surplusOf spec.replicas
        (instancesOf agentOf start (agentOf record.replicaId)))

omit [LinearOrder ReplicaId] in
theorem of_drained_iff : (drained answers).of before = some record ↔
    leaves answers before = false ∧
      record = { before with drainingAt := some (before.drainingAt.getD answers.now) } := by
  simp only [drained]
  cases leaves answers before with
  | true => simp
  | false => simp [eq_comm]

/-- A record stays as it was, or it drains. -/
theorem of_removed (hfinished : before.createdAt.isSome = true) :
    (Unwanted answers start before ∧
        (removed answers start).of before = (drained answers).of before) ∨
      ¬ Unwanted answers start before ∧ (removed answers start).of before = some before := by
  have hnone : ¬ before.createdAt.isNone = true := by
    rw [Option.isNone_eq_false_iff.mpr hfinished]
    exact Bool.false_ne_true
  simp only [removed, if_neg hnone]
  cases hspec : specOf answers (agentOf before.replicaId) with
  | none =>
      left
      refine ⟨?_, if_pos rfl⟩
      intro spec hfound
      rw [hspec] at hfound
      cases hfound
  | some spec =>
      have hunwanted : Unwanted answers start before ↔ before.isInstance = true ∧
          (before.drainingAt.isSome = true ∨ before.replicaId ∈ start.replaceRequests ∨
            before.replicaId ∈ surplusOf spec.replicas
              (instancesOf agentOf start (agentOf before.replicaId))) := by
        constructor
        · exact fun hall => hall spec hspec
        · intro hreason found hfound
          rw [hspec, Option.some.injEq] at hfound
          rwa [← hfound]
      rw [hunwanted, Option.isNone_some, if_neg Bool.false_ne_true]
      by_cases hinstance : before.isInstance = true
      · rw [swept_of_instance hspec ⟨hinstance, hfinished⟩]
        by_cases hreason : before.drainingAt.isSome = true ∨
            before.replicaId ∈ start.replaceRequests ∨ before.replicaId ∈ surplusOf spec.replicas
              (instancesOf agentOf start (agentOf before.replicaId))
        · exact Or.inl ⟨⟨hinstance, hreason⟩, if_pos hreason⟩
        · exact Or.inr ⟨fun hunwanted => hreason hunwanted.2, if_neg hreason⟩
      · exact Or.inr ⟨fun hunwanted => hinstance hunwanted.1,
          swept_of_not_instance fun hlisted => hinstance hlisted.1⟩

/-- A record as it is once the replica is registered. -/
def listedNow (record : Record LaunchId ReplicaId) : Record LaunchId ReplicaId :=
  { record with isInstance := record.isInstance || record.drainingAt.isNone }

omit [LinearOrder ReplicaId] in
theorem listedNow_of_isInstance (hinstance : record.isInstance = true) :
    listedNow record = record := by
  rw [listedNow, hinstance, Bool.true_or, ← hinstance]

omit [LinearOrder ReplicaId] in
theorem listedNow_of_drains (hdrains : record.drainingAt.isSome = true) :
    listedNow record = record := by
  rw [listedNow, Option.isNone_eq_false_iff.mpr hdrains, Bool.or_false]

theorem exists_spec_of_wanted (hwanted : ¬ Unwanted answers start before) :
    ∃ spec ∈ answers.agentSpecs, spec.name = agentOf before.replicaId ∧
      (before.isInstance = true → before.drainingAt = none ∧
        before.replicaId ∉ start.replaceRequests ∧ before.replicaId ∉ surplusOf spec.replicas
          (instancesOf agentOf start spec.name)) := by
  obtain ⟨spec, hspec⟩ := not_forall.mp hwanted
  obtain ⟨hspec, hreason⟩ := Classical.not_imp.mp hspec
  obtain ⟨hmem, hname⟩ := mem_of_specOf hspec
  refine ⟨spec, hmem, hname, fun hinstance => ?_⟩
  obtain ⟨hstays, hothers⟩ := not_or.mp fun hor => hreason ⟨hinstance, hor⟩
  rw [hname]
  exact ⟨Option.not_isSome_iff_eq_none.mp hstays, not_or.mp hothers⟩

/-- What a record comes from. -/
inductive Comes (answers : Answers agentOf LaunchId) (start : Fleet LaunchId ReplicaId) :
    Record LaunchId ReplicaId → Prop where
  | kept {before : Record LaunchId ReplicaId} (mem : before ∈ start.records)
      (finished : before.createdAt.isSome = true) (wanted : ¬ Unwanted answers start before) :
      Comes answers start (listedNow before)
  | drains {before : Record LaunchId ReplicaId} (mem : before ∈ start.records)
      (finished : before.createdAt.isSome = true) (unwanted : Unwanted answers start before)
      (waits : leaves answers before = false) : Comes answers start
        { before with drainingAt := some (before.drainingAt.getD answers.now) }
  | launched {spec : AgentSpec AgentName} {index : ℕ} {machine : LaunchId} {createdAt : ℚ}
      (mem : spec ∈ answers.agentSpecs) : Comes answers start
        ⟨answers.draw spec.name index, machine, some createdAt, none, true⟩

theorem Passed.comes (hpassed : Passed answers start after) (hrecord : record ∈ after.records) :
    Comes answers start record := by
  obtain ⟨middle, hat, hfilled⟩ := hpassed
  rcases (hfilled.mem_iff record).mp hrecord with ⟨kept, hkept, rfl⟩ |
    ⟨spec, hspec, index, -, machine, -, rfl⟩
  · obtain ⟨before, hbefore, hfate⟩ := (hat.mem_iff kept).mp hkept
    have hfinished : before.createdAt.isSome = true := by
      rw [← (createdAt_of_removed hfate).1]
      exact (createdAt_of_removed hfate).2
    rcases @of_removed _ _ _ _ _ _ answers start before hfinished with
      ⟨hunwanted, hof⟩ | ⟨hwanted, hof⟩
    · obtain ⟨hwaits, rfl⟩ := of_drained_iff.mp (hof ▸ hfate)
      have hcomes := Comes.drains hbefore hfinished hunwanted hwaits
      rwa [Option.isNone_some, Bool.false_and, Bool.or_false]
    · rw [hof, Option.some.injEq] at hfate
      subst hfate
      obtain ⟨spec, hspec, hname, -⟩ := exists_spec_of_wanted hwanted
      rw [← hname, isSome_specOf_iff.mpr (List.mem_map_of_mem hspec), Bool.and_true]
      exact .kept hbefore hfinished hwanted
  · exact .launched hspec

theorem Passed.keeps (hpassed : Passed answers start after) (hbefore : before ∈ start.records)
    (hfinished : before.createdAt.isSome = true) (hwanted : ¬ Unwanted answers start before) :
    listedNow before ∈ after.records := by
  obtain ⟨middle, hat, hfilled⟩ := hpassed
  have hof := ((of_removed hfinished).resolve_left fun hunwanted => hwanted hunwanted.1).2
  have hmiddle := (hat.mem_iff before).mpr ⟨before, hbefore, hof⟩
  obtain ⟨spec, hspec, hname, -⟩ := exists_spec_of_wanted hwanted
  refine (hfilled.mem_iff _).mpr (Or.inl ⟨before, hmiddle, ?_⟩)
  rw [listedNow, ← hname, isSome_specOf_iff.mpr (List.mem_map_of_mem hspec), Bool.and_true]

theorem isInstance_of_unwanted (hunwanted : Unwanted answers start record)
    (hagent : agentOf record.replicaId ∈ answers.agentSpecs.map AgentSpec.name) :
    record.isInstance = true := by
  obtain ⟨spec, hspec⟩ := exists_specOf hagent
  exact (hunwanted spec hspec).1

theorem not_lost_of_unwanted (hunwanted : Unwanted answers start record) :
    ¬ Lost agentOf answers.agentSpecs record := by
  intro hlost
  have hinstance := isInstance_of_unwanted hunwanted hlost.configured
  exact Bool.false_ne_true (hlost.unlisted.symm.trans hinstance)

/-- A lost replica stays lost. -/
theorem Passed.mem_iff_of_lost (hpassed : Passed answers start after)
    (hlost : Lost agentOf answers.agentSpecs record) :
    record ∈ after.records ↔ record ∈ start.records := by
  constructor
  · intro hrecord
    cases hpassed.comes hrecord with
    | @kept before hbefore _ _ =>
        have hdrains : before.drainingAt.isSome = true := hlost.drains
        rwa [listedNow_of_drains hdrains]
    | @drains before _ _ hunwanted _ =>
        have hinstance := isInstance_of_unwanted hunwanted hlost.configured
        exact absurd (hlost.unlisted.symm.trans hinstance) Bool.false_ne_true
    | launched => exact absurd hlost.drains Bool.false_ne_true
  · intro hrecord
    have hkept := hpassed.keeps hrecord hlost.finished fun hunwanted =>
      not_lost_of_unwanted hunwanted hlost
    rwa [listedNow_of_drains hlost.drains] at hkept

end Kept

/-! ### The replicas that do not drain -/

section Level

variable [DecidableEq AgentName] [LinearOrder ReplicaId] {agentOf : ReplicaId → AgentName}
  {answers : Answers agentOf LaunchId} {start after : Fleet LaunchId ReplicaId}
  {record : Record LaunchId ReplicaId} {agentName : AgentName}

omit [LinearOrder ReplicaId] in
theorem mem_staying : record ∈ start.staying agentOf agentName ↔
    record ∈ start.records ∧ agentOf record.replicaId = agentName ∧ record.drainingAt = none := by
  rw [Fleet.staying, List.mem_filter, decide_eq_true_eq]

omit [LinearOrder ReplicaId] in
theorem nodup_staying (fleet : Fleet LaunchId ReplicaId) :
    ((fleet.staying agentOf agentName).map Record.replicaId).Nodup :=
  fleet.nodup.sublist (List.filter_sublist.map _)

theorem mem_inOrder (hlevel : Level agentOf answers.agentSpecs start) :
    record ∈ inOrder (instancesOf agentOf start agentName) ↔
      record ∈ start.staying agentOf agentName := by
  rw [inOrder, (List.perm_insertionSort byAge _).mem_iff, List.mem_filter, mem_instancesOf,
    mem_staying, Option.isNone_iff_eq_none]
  constructor
  · rintro ⟨⟨hmem, hagent, -⟩, hstays⟩
    exact ⟨hmem, hagent, hstays⟩
  · rintro ⟨hmem, hagent, hstays⟩
    exact ⟨⟨hmem, hagent, (hlevel.listed record hmem hstays).1, hlevel.finished record hmem⟩,
      hstays⟩

theorem nodup_inOrder (fleet : Fleet LaunchId ReplicaId) :
    ((inOrder (instancesOf agentOf fleet agentName)).map Record.replicaId).Nodup := by
  refine ((List.perm_insertionSort byAge _).map _).nodup_iff.mpr ?_
  exact (nodup_listReplicas _ fleet).sublist (List.filter_sublist.map _)

theorem length_inOrder (hlevel : Level agentOf answers.agentSpecs start) :
    (inOrder (instancesOf agentOf start agentName)).length =
      (start.staying agentOf agentName).length :=
  ((List.perm_ext_iff_of_nodup ((nodup_inOrder start).of_map _)
    ((nodup_staying start).of_map _)).mpr fun _ => mem_inOrder hlevel).length_eq

/-- The replicas the removals keep, of those that do not drain. -/
theorem mem_staying_of_at {requested : ReplicaId → Prop} {middle : Fleet LaunchId ReplicaId}
    (hat : At answers start (removed answers start) requested middle) :
    record ∈ middle.staying agentOf agentName ↔
      record ∈ start.staying agentOf agentName ∧ record.createdAt.isSome = true ∧
        ¬ Unwanted answers start record := by
  rw [mem_staying, mem_staying, hat.mem_iff]
  constructor
  · rintro ⟨⟨before, hbefore, hfate⟩, hagent, hstays⟩
    obtain ⟨hcreated, hfinished⟩ := createdAt_of_removed hfate
    rcases @of_removed _ _ _ _ _ _ answers start before (hcreated ▸ hfinished) with
      ⟨-, hof⟩ | ⟨hwanted, hof⟩
    · rw [hof, of_drained_iff] at hfate
      rw [hfate.2] at hstays
      cases hstays
    · rw [hof, Option.some.injEq] at hfate
      rw [← hfate] at hagent hstays hfinished ⊢
      exact ⟨⟨hbefore, hagent, hstays⟩, hfinished, hwanted⟩
  · rintro ⟨⟨hmem, hagent, hstays⟩, hfinished, hwanted⟩
    have hof := ((of_removed hfinished).resolve_left fun hunwanted => hwanted hunwanted.1).2
    exact ⟨⟨record, hmem, hof⟩, hagent, hstays⟩

/-- Of a level fleet the removals keep the first replicas. -/
theorem length_staying_of_at {requested : ReplicaId → Prop} {middle : Fleet LaunchId ReplicaId}
    (hat : At answers start (removed answers start) requested middle)
    (hlevel : Level agentOf answers.agentSpecs start) {spec : AgentSpec AgentName}
    (hspec : spec ∈ answers.agentSpecs) :
    (middle.staying agentOf spec.name).length = spec.replicas := by
  have hkept : (middle.staying agentOf spec.name).Perm
      ((inOrder (instancesOf agentOf start spec.name)).take spec.replicas) := by
    apply (List.perm_ext_iff_of_nodup ((nodup_staying middle).of_map _)
      (((nodup_inOrder start).of_map _).sublist (List.take_sublist _ _))).mpr
    intro record
    rw [mem_staying_of_at hat, ← mem_inOrder hlevel]
    have hsplit := List.take_append_drop spec.replicas
      (inOrder (instancesOf agentOf start spec.name))
    constructor
    · rintro ⟨hmem, -, hwanted⟩
      obtain ⟨found, hfound, hname, hkept⟩ := exists_spec_of_wanted hwanted
      obtain ⟨hrecord, hagent, hstays⟩ := mem_staying.mp ((mem_inOrder hlevel).mp hmem)
      rw [hagent] at hname
      rw [eq_of_name hfound hspec hname] at hkept
      have hfree := (hkept (hlevel.listed record hrecord hstays).1).2.2
      rw [← hsplit] at hmem
      exact (List.mem_append.mp hmem).resolve_right fun hdrop =>
        hfree (List.mem_map_of_mem hdrop)
    · intro htake
      have hmem := List.mem_of_mem_take htake
      obtain ⟨hrecord, hagent, hstays⟩ := mem_staying.mp ((mem_inOrder hlevel).mp hmem)
      refine ⟨hmem, hlevel.finished record hrecord, fun hunwanted => ?_⟩
      have hspecOf : specOf answers (agentOf record.replicaId) = some spec := by
        rw [hagent]
        exact specOf_of_mem hspec
      rcases (hunwanted spec hspecOf).2 with hdrains | hrequested | hsurplus
      · rw [hstays] at hdrains
        cases hdrains
      · exact hlevel.unrequested record hrecord hstays hrequested
      · have hnodup : ((inOrder (instancesOf agentOf start spec.name)).map
            Record.replicaId).Nodup := nodup_inOrder start
        rw [← hsplit, List.map_append] at hnodup
        rw [hagent] at hsurplus
        exact (List.nodup_append.mp hnodup).2.2 _ (List.mem_map_of_mem htake) _ hsurplus rfl
  rw [hkept.length_eq, List.length_take, length_inOrder hlevel]
  exact min_eq_left (hlevel.enough spec hspec)

theorem At.draw_new {requested : ReplicaId → Prop} {middle : Fleet LaunchId ReplicaId}
    (hat : At answers start (removed answers start) requested middle)
    (hsmooth : Smooth answers start) (agentName : AgentName) (index : ℕ) :
    answers.draw agentName index ∉ middle.replicaIds := by
  intro hmem
  obtain ⟨record, hrecord, hid⟩ := List.mem_map.mp hmem
  obtain ⟨before, hbefore, hfate⟩ := (hat.mem_iff record).mp hrecord
  apply hsmooth.draw_new agentName index
  rw [← hid, (removed answers start).replicaId_of hfate]
  exact Fleet.mem_replicaIds hbefore

omit [LinearOrder ReplicaId] in
/-- As many as are missing are launched. -/
theorem Filled.length_staying {middle : Fleet LaunchId ReplicaId}
    (hfilled : Filled answers middle after) {spec : AgentSpec AgentName}
    (hspec : spec ∈ answers.agentSpecs)
    (hnew : ∀ agentName index, answers.draw agentName index ∉ middle.replicaIds)
    (hinjective : ∀ agentName, Function.Injective (answers.draw agentName))
    (hplaces : ∀ agentName index, ∃ machine,
      answers.place (answers.draw agentName index) = some (machine, true)) :
    (after.staying agentOf spec.name).length =
      max (middle.staying agentOf spec.name).length spec.replicas := by
  generalize hmissing : spec.replicas - (middle.staying agentOf spec.name).length = missing
  have hids : ((after.staying agentOf spec.name).map Record.replicaId).Perm
      ((middle.staying agentOf spec.name).map Record.replicaId ++
        (List.range missing).map (answers.draw spec.name)) := by
    apply (List.perm_ext_iff_of_nodup (nodup_staying after) ?_).mpr
    · intro replicaId
      rw [List.mem_append, List.mem_map, List.mem_map, List.mem_map]
      constructor
      · rintro ⟨record, hrecord, rfl⟩
        obtain ⟨hmem, hagent, hstays⟩ := mem_staying.mp hrecord
        rcases (hfilled.mem_iff record).mp hmem with ⟨before, hbefore, rfl⟩ |
          ⟨found, hfound, index, hindex, machine, -, rfl⟩
        · exact Or.inl ⟨before, mem_staying.mpr ⟨hbefore, hagent, hstays⟩, rfl⟩
        · rw [answers.agentOf_draw] at hagent
          rw [eq_of_name hfound hspec hagent, hmissing] at hindex
          exact Or.inr ⟨index, List.mem_range.mpr hindex, by rw [eq_of_name hfound hspec hagent]⟩
      · rintro (⟨before, hbefore, rfl⟩ | ⟨index, hindex, rfl⟩)
        · obtain ⟨hmem, hagent, hstays⟩ := mem_staying.mp hbefore
          exact ⟨_, mem_staying.mpr ⟨(hfilled.mem_iff _).mpr (Or.inl ⟨before, hmem, rfl⟩), hagent,
            hstays⟩, rfl⟩
        · obtain ⟨machine, hplace⟩ := hplaces spec.name index
          rw [List.mem_range, ← hmissing] at hindex
          exact ⟨_, mem_staying.mpr ⟨(hfilled.mem_iff _).mpr (Or.inr
            ⟨spec, hspec, index, hindex, machine, hplace, rfl⟩), answers.agentOf_draw _ _, rfl⟩,
            rfl⟩
    · refine List.nodup_append.mpr ⟨nodup_staying middle,
        List.nodup_range.map (hinjective spec.name), ?_⟩
      rintro _ hold _ hdrawn rfl
      obtain ⟨record, hrecord, rfl⟩ := List.mem_map.mp hold
      obtain ⟨index, -, hdraw⟩ := List.mem_map.mp hdrawn
      exact hnew spec.name index (hdraw ▸ Fleet.mem_replicaIds (mem_staying.mp hrecord).1)
  have hlength := hids.length_eq
  rw [List.length_map, List.length_append, List.length_map, List.length_map,
    List.length_range] at hlength
  omega

theorem Passed.level (hsmooth : Smooth answers start) (hpassed : Passed answers start after) :
    Level agentOf answers.agentSpecs after where
  finished record hrecord := by
    cases hpassed.comes hrecord with
    | kept _ hfinished _ => exact hfinished
    | drains _ hfinished _ _ => exact hfinished
    | launched => rfl
  listed record hrecord hstays := by
    cases hpassed.comes hrecord with
    | @kept before _ _ hwanted =>
        obtain ⟨spec, hspec, hname, -⟩ := exists_spec_of_wanted hwanted
        refine ⟨?_, List.mem_map.mpr ⟨spec, hspec, hname⟩⟩
        change before.drainingAt = none at hstays
        rw [listedNow, hstays]
        exact Bool.or_true _
    | drains => cases hstays
    | launched hspec =>
        refine ⟨rfl, ?_⟩
        rw [answers.agentOf_draw]
        exact List.mem_map_of_mem hspec
  unrequested record hrecord hstays hrequested := by
    have hcomes := hpassed.comes hrecord
    obtain ⟨middle, hat, hfilled⟩ := hpassed
    rw [hfilled.requests, hat.requested_iff] at hrequested
    obtain ⟨hasked, hlisted⟩ := hrequested
    cases hcomes with
    | @kept before hbefore hfinished hwanted =>
        obtain ⟨spec, hspec, hname, hkept⟩ := exists_spec_of_wanted hwanted
        obtain ⟨found, hfound, hid, -⟩ := hlisted (List.mem_map.mpr ⟨spec, hspec, hname⟩)
        obtain ⟨hmem, -, hinstance, -⟩ := mem_instancesOf.mp hfound
        rw [Fleet.eq_of_mem hmem hbefore hid] at hinstance
        exact (hkept hinstance).2.1 hasked
    | drains => cases hstays
    | @launched spec index machine createdAt hspec =>
        have hagent : agentOf (answers.draw spec.name index) ∈
            answers.agentSpecs.map AgentSpec.name := by
          rw [answers.agentOf_draw]
          exact List.mem_map_of_mem hspec
        obtain ⟨found, hfound, hid, -⟩ := hlisted hagent
        apply hsmooth.draw_new spec.name index
        have hmem := Fleet.mem_replicaIds (mem_instancesOf.mp hfound).1
        rwa [hid] at hmem
  enough spec hspec := by
    obtain ⟨middle, hat, hfilled⟩ := hpassed
    rw [hfilled.length_staying hspec (hat.draw_new hsmooth) hsmooth.draw_injective hsmooth.places]
    exact le_max_right _ _

theorem Passed.balanced (hsmooth : Smooth answers start) (hpassed : Passed answers start after)
    (hlevel : Level agentOf answers.agentSpecs start) :
    Balanced agentOf answers.agentSpecs after where
  toLevel := hpassed.level hsmooth
  even spec hspec := by
    obtain ⟨middle, hat, hfilled⟩ := hpassed
    rw [hfilled.length_staying hspec (hat.draw_new hsmooth) hsmooth.draw_injective hsmooth.places,
      length_staying_of_at hat hlevel hspec, max_self]

/-- Of a balanced fleet a replica that does not drain is wanted. -/
theorem Balanced.wanted (hbalanced : Balanced agentOf answers.agentSpecs start)
    (hrecord : record ∈ start.records) (hstays : record.drainingAt = none) :
    ¬ Unwanted answers start record := by
  intro hunwanted
  obtain ⟨-, hagent⟩ := hbalanced.listed record hrecord hstays
  obtain ⟨spec, hspec, hname⟩ := List.mem_map.mp hagent
  have hspecOf := specOf_of_mem hspec
  rw [hname] at hspecOf
  rcases (hunwanted spec hspecOf).2 with hdrains | hrequested | hsurplus
  · rw [hstays] at hdrains
    cases hdrains
  · exact hbalanced.unrequested record hrecord hstays hrequested
  · rw [surplusOf, ← hname, List.drop_eq_nil_of_le] at hsurplus
    · exact List.not_mem_nil hsurplus
    · rw [length_inOrder hbalanced.toLevel, hbalanced.even spec hspec]

/-- A replica that drains is lost, or it drained before or was to drain. -/
theorem Passed.of_drains (hpassed : Passed answers start after) (hrecord : record ∈ after.records)
    {drainingAt : ℚ} (hdrains : record.drainingAt = some drainingAt) :
    Lost agentOf answers.agentSpecs record ∨ ∃ before ∈ start.records,
      Unwanted answers start before ∧ before.drainingAt.getD answers.now = drainingAt ∧
        answers.now - drainingAt < drainTimeout := by
  cases hpassed.comes hrecord with
  | @kept before hbefore hfinished hwanted =>
      have hdrains' : before.drainingAt.isSome = true := by
        change before.drainingAt = some drainingAt at hdrains
        rw [hdrains]
        rfl
      obtain ⟨spec, hspec, hname, hkept⟩ := exists_spec_of_wanted hwanted
      rw [listedNow_of_drains hdrains']
      refine Or.inl ⟨hfinished, List.mem_map.mpr ⟨spec, hspec, hname⟩, ?_, hdrains'⟩
      rw [← Bool.not_eq_true]
      intro hinstance
      rw [(hkept hinstance).1] at hdrains'
      cases hdrains'
  | @drains before hbefore _ hunwanted hwaits =>
      have hsame := Option.some.inj hdrains
      refine Or.inr ⟨before, hbefore, hunwanted, hsame, ?_⟩
      rw [leaves, hsame, Bool.or_eq_false_iff] at hwaits
      exact not_le.mp (of_decide_eq_false hwaits.2)
  | launched => cases hdrains

theorem Passed.drainsBy (hpassed : Passed answers start after) {time : ℚ}
    (hdrains : DrainsBy agentOf answers.agentSpecs time start) (hnow : answers.now ≤ time) :
    DrainsBy agentOf answers.agentSpecs time after := by
  intro record hrecord drainingAt hdrainingAt
  apply (hpassed.of_drains hrecord hdrainingAt).imp_right
  rintro ⟨before, hbefore, hunwanted, rfl, -⟩
  cases hbeforeDrains : before.drainingAt with
  | none => exact hnow
  | some time =>
      exact (hdrains before hbefore time hbeforeDrains).resolve_left
        (not_lost_of_unwanted hunwanted)

/-- Nothing begins to drain in a balanced fleet. -/
theorem Passed.of_drains_balanced (hpassed : Passed answers start after) {time : ℚ}
    (hbalanced : Balanced agentOf answers.agentSpecs start)
    (hdrains : DrainsBy agentOf answers.agentSpecs time start)
    (hrecord : record ∈ after.records) {drainingAt : ℚ}
    (hdrainingAt : record.drainingAt = some drainingAt) :
    Lost agentOf answers.agentSpecs record ∨
      drainingAt ≤ time ∧ answers.now - drainingAt < drainTimeout := by
  apply (hpassed.of_drains hrecord hdrainingAt).imp_right
  rintro ⟨before, hbefore, hunwanted, rfl, hwaits⟩
  refine ⟨?_, hwaits⟩
  cases hbeforeDrains : before.drainingAt with
  | none => exact absurd hunwanted (hbalanced.wanted hbefore hbeforeDrains)
  | some time =>
      exact (hdrains before hbefore time hbeforeDrains).resolve_left
        (not_lost_of_unwanted hunwanted)

end Level

/-! ### Runs of smooth passes -/

section Run

variable [DecidableEq AgentName] [DecidableEq LaunchId] [LinearOrder ReplicaId]
  {agentOf : ReplicaId → AgentName} {answers : Answers agentOf LaunchId}
  {specs : List (AgentSpec AgentName)} {fleet final : Fleet LaunchId ReplicaId}
  {record : Record LaunchId ReplicaId}

/-- Passes are smooth and find the agents as they are configured, and no replica is to be
replaced. -/
def Event.IsSmooth (specs : List (AgentSpec AgentName)) (fleet : Fleet LaunchId ReplicaId) :
    Event agentOf LaunchId → Prop
  | .passes answers => answers.agentSpecs = specs ∧ Smooth answers fleet
  | .restarts => True
  | .requests _ => False

theorem passed_next (hsmooth : Smooth answers fleet) :
    Passed answers fleet (next fleet (.passes answers)) :=
  holds_next (triple_reconcile_smooth hsmooth) rfl

theorem mem_iff_of_lost_run {events : List (Event agentOf LaunchId)}
    (hlost : Lost agentOf specs record)
    (hguarded : (system agentOf LaunchId).Guarded (Event.IsSmooth specs) fleet events)
    (hrun : (system agentOf LaunchId).run fleet events = some final) :
    record ∈ final.records ↔ record ∈ fleet.records := by
  refine @TransitionSystem.invariant_run _ _ (system agentOf LaunchId) (fun state =>
    (record ∈ state.records ↔ record ∈ fleet.records)) _ ?_ _ _ _ Iff.rfl hguarded hrun
  intro state event after hstate hevent hstep
  cases hstep
  cases event with
  | passes answers =>
      obtain ⟨rfl, hsmooth⟩ := hevent
      exact ((passed_next hsmooth).mem_iff_of_lost hlost).trans hstate
  | restarts => exact hstate
  | requests => exact hevent.elim

/-- What holds from the second pass on. -/
structure Draining (agentOf : ReplicaId → AgentName) (specs : List (AgentSpec AgentName))
    (time : ℚ) (fleet : Fleet LaunchId ReplicaId) : Prop where
  balanced : Balanced agentOf specs fleet
  drainsBy : DrainsBy agentOf specs time fleet

omit [DecidableEq LaunchId] in
theorem Draining.passed {time : ℚ} {after : Fleet LaunchId ReplicaId}
    (hdraining : Draining agentOf answers.agentSpecs time fleet) (hsmooth : Smooth answers fleet)
    (hpassed : Passed answers fleet after) :
    Draining agentOf answers.agentSpecs time after where
  balanced := hpassed.balanced hsmooth hdraining.balanced.toLevel
  drainsBy _ hrecord _ hdrains :=
    (hpassed.of_drains_balanced hdraining.balanced hdraining.drainsBy hrecord hdrains).imp_right
      And.left

omit [DecidableEq LaunchId] [LinearOrder ReplicaId] in
theorem Draining.restarted {time : ℚ} (hdraining : Draining agentOf specs time fleet) :
    Draining agentOf specs time { fleet with seenHealthy := [] } where
  balanced :=
    { finished := hdraining.balanced.finished
      listed := hdraining.balanced.listed
      unrequested := hdraining.balanced.unrequested
      enough := hdraining.balanced.enough
      even := hdraining.balanced.even }
  drainsBy := hdraining.drainsBy

theorem Draining.run {time : ℚ} {events : List (Event agentOf LaunchId)}
    (hdraining : Draining agentOf specs time fleet)
    (hguarded : (system agentOf LaunchId).Guarded (Event.IsSmooth specs) fleet events)
    (hrun : (system agentOf LaunchId).run fleet events = some final) :
    Draining agentOf specs time final := by
  refine (system agentOf LaunchId).invariant_run ?_ hdraining hguarded hrun
  intro state event after hstate hevent hstep
  cases hstep
  cases event with
  | passes answers =>
      obtain ⟨rfl, hsmooth⟩ := hevent
      exact hstate.passed hsmooth (passed_next hsmooth)
  | restarts => exact hstate.restarted
  | requests => exact hevent.elim

/-- Two passes balance any fleet. -/
theorem draining_of_passes {first second : Answers agentOf LaunchId}
    (hfirst : Event.IsSmooth specs fleet (.passes first))
    (hsecond : Event.IsSmooth specs (next fleet (.passes first)) (.passes second))
    (hdrains : ∀ record ∈ fleet.records, ∀ drainingAt ∈ record.drainingAt,
      drainingAt ≤ second.now) (hnow : first.now ≤ second.now) :
    Draining agentOf specs second.now (next (next fleet (.passes first)) (.passes second)) := by
  obtain ⟨rfl, hsmooth⟩ := hfirst
  obtain ⟨hspecs, hsmooth'⟩ := hsecond
  have hpassed := passed_next hsmooth
  have hpassed' := passed_next hsmooth'
  have hlevel := hpassed.level hsmooth
  have hdrainsBy := hpassed.drainsBy
    (fun record hmem drainingAt hdrainingAt => Or.inr (hdrains record hmem drainingAt hdrainingAt))
    hnow
  rw [← hspecs] at hlevel hdrainsBy ⊢
  exact ⟨hpassed'.balanced hsmooth' hlevel, hpassed'.drainsBy hdrainsBy le_rfl⟩

/-- A pass after the drains have timed out. -/
theorem Draining.settled {time : ℚ} {last : Answers agentOf LaunchId}
    (hdraining : Draining agentOf specs time fleet)
    (hlast : Event.IsSmooth specs fleet (.passes last)) (hnow : time + drainTimeout ≤ last.now)
    (hnone : ∀ record ∈ (next fleet (.passes last)).records, ¬ Lost agentOf specs record) :
    Settled agentOf specs (next fleet (.passes last)) := by
  obtain ⟨rfl, hsmooth⟩ := hlast
  have hpassed := passed_next hsmooth
  refine ⟨(hdraining.passed hsmooth hpassed).balanced, fun record hrecord => ?_⟩
  cases hdrains : record.drainingAt with
  | none => rfl
  | some drainingAt =>
      obtain ⟨hsince, hwaits⟩ := (hpassed.of_drains_balanced hdraining.balanced
        hdraining.drainsBy hrecord hdrains).resolve_left (hnone record hrecord)
      linarith

/-- After two smooth passes, and one more once the drains time out, every agent runs just the
replicas it is to have and there are no other records, unless some replica is lost. -/
theorem settled_run_iff {first second last : Answers agentOf LaunchId}
    {rest : List (Event agentOf LaunchId)}
    (hguarded : (system agentOf LaunchId).Guarded (Event.IsSmooth specs) fleet
      ([.passes first, .passes second] ++ rest ++ [.passes last]))
    (hdrains : ∀ record ∈ fleet.records, ∀ drainingAt ∈ record.drainingAt,
      drainingAt ≤ second.now)
    (hfirst : first.now ≤ second.now) (hlast : second.now + drainTimeout ≤ last.now)
    (hrun : (system agentOf LaunchId).run fleet
      ([.passes first, .passes second] ++ rest ++ [.passes last]) = some final) :
    Settled agentOf specs final ↔ ∀ record ∈ fleet.records, ¬ Lost agentOf specs record := by
  have hlost (record : Record LaunchId ReplicaId) (hlost : Lost agentOf specs record) :
      record ∈ final.records ↔ record ∈ fleet.records :=
    mem_iff_of_lost_run hlost hguarded hrun
  constructor
  · intro hsettled record hmem hrecord
    have hdrains := hrecord.drains
    rw [hsettled.stays record ((hlost record hrecord).mpr hmem)] at hdrains
    cases hdrains
  intro hnone
  obtain ⟨before, hbefore, hfinal⟩ := (system agentOf LaunchId).run_append_eq_some.mp hrun
  obtain ⟨hguarded, hguardedLast⟩ := (system agentOf LaunchId).along_append_iff.mp hguarded
  obtain ⟨middle, hmiddle, hrest⟩ := (system agentOf LaunchId).run_append_eq_some.mp hbefore
  obtain ⟨⟨hsmooth, hsmooth', -⟩, hguardedRest⟩ :=
    (system agentOf LaunchId).along_append_iff.mp hguarded
  cases hmiddle
  cases hfinal
  have hdraining := (draining_of_passes hsmooth hsmooth' hdrains hfirst).run
    (hguardedRest _ rfl) hrest
  refine hdraining.settled (hguardedLast before hbefore).1 hlast ?_
  intro record hmem hrecord
  exact hnone record ((hlost record hrecord).mp hmem) hrecord

/-- An agent with two replicas, whose IDs are drawn from a first one on. -/
def twoReplicas (firstId : ℕ) (now : ℚ) : Answers (fun _ : ℕ => ()) Unit where
  agentSpecs := [{ name := (), isDatabase := false, replicas := 2 }]
  names_nodup := by decide
  named := none
  now := now
  startupGrace := 30
  stopping := false
  imagesReady := true
  dead := []
  surplus := []
  answers _ := true
  idle _ := false
  running _ := true
  draw _ index := firstId + index
  agentOf_draw _ _ := rfl
  place _ := some ((), true)
  launches _ := .finishes
  createdAt _ := now
  fails _ := none

theorem smooth_twoReplicas {firstId : ℕ} {now : ℚ} {fleet : Fleet Unit ℕ}
    (hids : ∀ replicaId ∈ fleet.replicaIds, replicaId < firstId) :
    Smooth (twoReplicas firstId now) fleet where
  fails _ := rfl
  named := rfl
  stopping := rfl
  imagesReady := rfl
  dead := rfl
  surplus := rfl
  healthy _ _ _ _ := Or.inl rfl
  running _ _ := rfl
  places _ _ := ⟨(), rfl⟩
  launches _ _ := rfl
  draw_new _ index hmem := absurd (hids _ hmem) (Nat.le_add_right firstId index).not_gt
  draw_injective _ := add_right_injective firstId

/-- A replica that drains, and one whose launch was cut short. -/
def unsettled : Fleet Unit ℕ where
  records := [⟨0, (), some 0, some 90, true⟩, ⟨1, (), none, none, false⟩]
  nodup := by decide
  seenHealthy := []
  replaceRequests := []

theorem settled_run_iff_unsettled :
    ∃ final, (system (fun _ : ℕ => ()) Unit).run unsettled
        ([.passes (twoReplicas 10 100), .passes (twoReplicas 20 110)] ++ [.restarts] ++
          [.passes (twoReplicas 30 300)]) = some final ∧
      (Settled (fun _ => ()) (twoReplicas 10 100).agentSpecs final ↔
        ∀ record ∈ unsettled.records,
          ¬ Lost (fun _ => ()) (twoReplicas 10 100).agentSpecs record) := by
  have hguarded : (system (fun _ : ℕ => ()) Unit).Guarded
      (Event.IsSmooth (twoReplicas 10 100).agentSpecs) unsettled
      ([.passes (twoReplicas 10 100), .passes (twoReplicas 20 110)] ++ [.restarts] ++
        [.passes (twoReplicas 30 300)]) := by
    refine ⟨⟨rfl, smooth_twoReplicas ?_⟩, ⟨rfl, smooth_twoReplicas ?_⟩, trivial,
      ⟨rfl, smooth_twoReplicas ?_⟩, trivial⟩
    · decide
    · decide +kernel
    · decide +kernel
  refine ⟨_, rfl, settled_run_iff hguarded ?_ (by decide) (by decide +kernel) rfl⟩
  decide

end Run

end CanyonOS.Reconciler.Passes
