import CanyonOS.Reconciler.Staying

/-!
# Smooth passes

A pass in which nothing fails, every replica is healthy and there is a machine for each that is
missing: what it makes of each record.
-/

namespace CanyonOS.Reconciler.Passes

open Raising

variable {AgentName LaunchId ReplicaId : Type}

/-! ### What becomes of a record -/

/-- What becomes of each record, under its ID. -/
structure Fate (LaunchId ReplicaId : Type) where
  of : Record LaunchId ReplicaId → Option (Record LaunchId ReplicaId)
  replicaId_of : ∀ {before after}, of before = some after → after.replicaId = before.replicaId

namespace Fate

variable (first second : Fate LaunchId ReplicaId)

def stays : Fate LaunchId ReplicaId where
  of := some
  replicaId_of hafter := by rw [Option.some.inj hafter]

def goes : Fate LaunchId ReplicaId where
  of _ := none
  replicaId_of hafter := by cases hafter

def andThen : Fate LaunchId ReplicaId where
  of before := (first.of before).bind second.of
  replicaId_of hafter := by
    obtain ⟨middle, hfirst, hsecond⟩ := Option.bind_eq_some_iff.mp hafter
    rw [second.replicaId_of hsecond, first.replicaId_of hfirst]

/-- Of the records with some IDs. -/
def only (chosen : ReplicaId → Bool) : Fate LaunchId ReplicaId where
  of before := if chosen before.replicaId then first.of before else some before
  replicaId_of {before after} hafter := by
    split at hafter
    · exact first.replicaId_of hafter
    · rw [Option.some.inj hafter]

/-- The records become what they become, whatever their IDs. -/
theorem of_only (chosen : ReplicaId → Bool) (before : Record LaunchId ReplicaId) :
    (first.only chosen).of before =
      if chosen before.replicaId then first.of before else some before :=
  rfl

theorem of_andThen (before : Record LaunchId ReplicaId) :
    (first.andThen second).of before = (first.of before).bind second.of :=
  rfl

end Fate

/-- Whether the record is to leave even when its replica is healthy. -/
def HasReason (surplus requests : List ReplicaId) (record : Record LaunchId ReplicaId) : Prop :=
  record.drainingAt.isSome ∨ record.replicaId ∈ requests ∨ record.replicaId ∈ surplus

instance [DecidableEq ReplicaId] (surplus requests : List ReplicaId)
    (record : Record LaunchId ReplicaId) : Decidable (HasReason surplus requests record) :=
  inferInstanceAs (Decidable (_ ∨ _ ∨ _))

/-- From the records at the start of a pass, what is left of each. -/
structure At [DecidableEq ReplicaId] {agentOf : ReplicaId → AgentName}
    (answers : Answers agentOf LaunchId) (start : Fleet LaunchId ReplicaId)
    (fate : Fate LaunchId ReplicaId) (requested : ReplicaId → Prop)
    (fleet : Fleet LaunchId ReplicaId) : Prop where
  mem_iff : ∀ record, record ∈ fleet.records ↔
    ∃ before ∈ start.records, fate.of before = some record
  requested_iff : ∀ replicaId, replicaId ∈ fleet.replaceRequests ↔ requested replicaId
  seen : ∀ replicaId ∈ fleet.seenHealthy,
    replicaId ∈ start.seenHealthy ∨ answers.answers replicaId = true

section At

variable [LinearOrder ReplicaId] {agentOf : ReplicaId → AgentName}
  {answers : Answers agentOf LaunchId} {start fleet : Fleet LaunchId ReplicaId}
  {fate other : Fate LaunchId ReplicaId} {requested : ReplicaId → Prop}

theorem At.congr (hat : At answers start fate requested fleet)
    (hfate : ∀ before ∈ start.records, fate.of before = other.of before) :
    At answers start other requested fleet where
  mem_iff record := by
    rw [hat.mem_iff]
    apply exists_congr
    intro before
    refine and_congr_right fun hmem => ?_
    rw [hfate before hmem]
  requested_iff := hat.requested_iff
  seen := hat.seen

/-- Records with one ID are what became of one record. -/
theorem At.eq_of_replicaId (hat : At answers start fate requested fleet)
    {first second : Record LaunchId ReplicaId} (hfirst : first ∈ fleet.records)
    {before : Record LaunchId ReplicaId} (hbefore : before ∈ start.records)
    (hsecond : fate.of before = some second) (hid : first.replicaId = second.replicaId) :
    first = second :=
  Fleet.eq_of_mem hfirst ((hat.mem_iff second).mpr ⟨before, hbefore, hsecond⟩) hid

theorem At.change (hat : At answers start fate requested fleet) (replicaId : ReplicaId)
    (change : Fate LaunchId ReplicaId) :
    At answers start (fate.andThen (change.only fun id => id = replicaId)) requested
      (fleet.change replicaId change.of) where
  mem_iff record := by
    rw [Fleet.mem_change_iff]
    constructor
    · rintro (⟨hmem, hid⟩ | ⟨middle, hmem, hid, after, hafter, rfl⟩)
      · obtain ⟨before, hbefore, hfate⟩ := (hat.mem_iff record).mp hmem
        refine ⟨before, hbefore, ?_⟩
        rw [Fate.of_andThen, hfate, Option.bind_some, Fate.of_only, if_neg (by simpa using hid)]
      · obtain ⟨before, hbefore, hfate⟩ := (hat.mem_iff middle).mp hmem
        refine ⟨before, hbefore, ?_⟩
        rw [Fate.of_andThen, hfate, Option.bind_some, Fate.of_only, if_pos (by simpa using hid),
          hafter, ← hid, ← change.replicaId_of hafter]
    · rintro ⟨before, hbefore, hfate⟩
      obtain ⟨middle, hmiddle, hrecord⟩ := Option.bind_eq_some_iff.mp hfate
      have hmem : middle ∈ fleet.records := (hat.mem_iff middle).mpr ⟨before, hbefore, hmiddle⟩
      rw [Fate.of_only] at hrecord
      split at hrecord
      case isTrue hid =>
        have hid' : middle.replicaId = replicaId := of_decide_eq_true hid
        refine Or.inr ⟨middle, hmem, hid', record, hrecord, ?_⟩
        rw [← hid', ← change.replicaId_of hrecord]
      case isFalse hid =>
        cases hrecord
        exact Or.inl ⟨hmem, fun hid' => hid (decide_eq_true hid')⟩
  requested_iff := hat.requested_iff
  seen := hat.seen

end At

/-! ### A smooth pass -/

section Smooth

variable [DecidableEq AgentName] [LinearOrder ReplicaId] {agentOf : ReplicaId → AgentName}

/-- Nothing fails, every replica is healthy and runs, and there is a machine for each that is
missing. -/
structure Smooth (answers : Answers agentOf LaunchId) (fleet : Fleet LaunchId ReplicaId) :
    Prop where
  fails : ∀ operation, answers.fails operation = none
  named : answers.named = none
  stopping : answers.stopping = false
  imagesReady : answers.imagesReady = true
  dead : answers.dead = []
  surplus : answers.surplus = []
  healthy : ∀ record ∈ fleet.records, ∀ createdAt ∈ record.createdAt,
    answers.answers record.replicaId = true ∨
      record.replicaId ∉ fleet.seenHealthy ∧ answers.now - createdAt ≤ answers.startupGrace
  running : ∀ record ∈ fleet.records, answers.running record.replicaId = true
  places : ∀ agentName index, ∃ machine,
    answers.place (answers.draw agentName index) = some (machine, true)
  launches : ∀ agentName index, answers.launches (answers.draw agentName index) = .finishes
  draw_new : ∀ agentName index, answers.draw agentName index ∉ fleet.replicaIds
  draw_injective : ∀ agentName, Function.Injective (answers.draw agentName)

variable (answers : Answers agentOf LaunchId)

/-- The replica does not have to drain any longer. -/
def leaves (record : Record LaunchId ReplicaId) : Bool :=
  isDatabase answers (agentOf record.replicaId) || answers.idle record.replicaId ||
    drainTimeout ≤ answers.now - record.drainingAt.getD answers.now

/-- A step of a drain. -/
def drained : Fate LaunchId ReplicaId where
  of record :=
    if leaves answers record then none
    else some { record with drainingAt := some (record.drainingAt.getD answers.now) }
  replicaId_of hafter := by
    split at hafter
    · cases hafter
    · rw [← Option.some.inj hafter]

def marked (drainingAt : ℚ) : Fate LaunchId ReplicaId where
  of record := some { record with drainingAt := some drainingAt }
  replicaId_of hafter := by rw [← Option.some.inj hafter]

variable {answers} {start fleet : Fleet LaunchId ReplicaId} {fate : Fate LaunchId ReplicaId}
  {requested : ReplicaId → Prop} {raised : Failure → Fleet LaunchId ReplicaId → Prop}

omit [DecidableEq AgentName] [LinearOrder ReplicaId] in
theorem triple_attempt (hsmooth : Smooth answers start) {before : Fleet LaunchId ReplicaId → Prop}
    (operation : Operation AgentName ReplicaId) :
    Triple before (attempt answers operation) (fun _ => before) raised := by
  rw [attempt, hsmooth.fails]
  exact triple_pure fun _ => id

/-- A record as it stands in the pass. -/
structure Current (start : Fleet LaunchId ReplicaId) (fate : Fate LaunchId ReplicaId)
    (before record : Record LaunchId ReplicaId) : Prop where
  mem : before ∈ start.records
  of : fate.of before = some record
  createdAt : record.createdAt = before.createdAt
  finished : record.createdAt.isSome = true

variable {before record : Record LaunchId ReplicaId}

omit [LinearOrder ReplicaId] in
theorem Current.eq (hcurrent : Current start fate before record)
    {other middle : Record LaunchId ReplicaId} (hother : other ∈ start.records)
    (hmiddle : fate.of other = some middle) (hid : middle.replicaId = record.replicaId) :
    middle = record := by
  have hsame : other = before := by
    apply Fleet.eq_of_mem hother hcurrent.mem
    rw [← fate.replicaId_of hmiddle, hid, fate.replicaId_of hcurrent.of]
  rw [hsame, hcurrent.of, Option.some.injEq] at hmiddle
  exact hmiddle.symm

omit [DecidableEq AgentName] in
/-- What counts of a fate is what it makes of the record. -/
theorem At.change_congr {first second : Fate LaunchId ReplicaId}
    (hcurrent : Current start fate before record)
    (hat : At answers start (fate.andThen (first.only fun id => id = record.replicaId)) requested
      fleet) (hsame : first.of record = second.of record) :
    At answers start (fate.andThen (second.only fun id => id = record.replicaId)) requested
      fleet := by
  apply hat.congr
  intro other hother
  rw [Fate.of_andThen, Fate.of_andThen]
  cases hmiddle : fate.of other with
  | none => rfl
  | some middle =>
      rw [Option.bind_some, Option.bind_some, Fate.of_only, Fate.of_only]
      by_cases hid : middle.replicaId = record.replicaId
      · rw [hcurrent.eq hother hmiddle hid, hsame]
      · rw [if_neg (by simpa using hid), if_neg (by simpa using hid)]

omit [DecidableEq AgentName] in
theorem At.only_andThen_only {first second : Fate LaunchId ReplicaId} {chosen : ReplicaId → Bool}
    (hat : At answers start ((fate.andThen (first.only chosen)).andThen (second.only chosen))
      requested fleet) :
    At answers start (fate.andThen ((first.andThen second).only chosen)) requested fleet := by
  apply hat.congr
  intro other _
  rw [Fate.of_andThen, Fate.of_andThen, Fate.of_andThen, Option.bind_assoc]
  apply congrArg (fate.of other).bind
  funext middle
  rw [Fate.of_only, Fate.of_only]
  by_cases hchosen : chosen middle.replicaId = true
  · rw [if_pos hchosen, if_pos hchosen, Fate.of_andThen]
    cases hafter : first.of middle with
    | none => rfl
    | some after =>
        rw [Option.bind_some, Option.bind_some, Fate.of_only, first.replicaId_of hafter,
          if_pos hchosen]
  · rw [if_neg hchosen, if_neg hchosen, Option.bind_some, Fate.of_only, if_neg hchosen]

omit [DecidableEq AgentName] in
/-- A record that stays as it is. -/
theorem At.only_of_stays {change : Fate LaunchId ReplicaId}
    (hat : At answers start fate requested fleet) (hcurrent : Current start fate before record)
    (hstays : change.of record = some record) :
    At answers start (fate.andThen (change.only fun id => id = record.replicaId)) requested
      fleet := by
  apply hat.congr
  intro other hother
  rw [Fate.of_andThen]
  cases hmiddle : fate.of other with
  | none => rfl
  | some middle =>
      rw [Option.bind_some, Fate.of_only]
      by_cases hid : middle.replicaId = record.replicaId
      · rw [if_pos (decide_eq_true hid), hcurrent.eq hother hmiddle hid, hstays]
      · rw [if_neg (by simpa using hid)]

omit [DecidableEq AgentName] in
theorem At.mem (hat : At answers start fate requested fleet)
    (hcurrent : Current start fate before record) : record ∈ fleet.records :=
  (hat.mem_iff record).mpr ⟨before, hcurrent.mem, hcurrent.of⟩

omit [DecidableEq AgentName] in
theorem At.find (hat : At answers start fate requested fleet)
    (hcurrent : Current start fate before record) :
    fleet.find record.replicaId = some record :=
  Fleet.find_of_mem (hat.mem hcurrent)

omit [DecidableEq AgentName] in
theorem triple_isHealthy (hsmooth : Smooth answers start)
    (hcurrent : Current start fate before record) :
    Triple (At answers start fate requested) (isHealthy answers record)
      (fun healthy fleet => healthy = true ∧ At answers start fate requested fleet) raised := by
  refine (triple_attempt hsmooth _).bind fun _ => ?_
  split
  case isTrue hanswers =>
    refine Triple.bind (triple_modify fun fleet hat => ?_) fun _ => triple_pure fun _ hfleet =>
      ⟨rfl, hfleet⟩
    refine ⟨hat.mem_iff, hat.requested_iff, ?_⟩
    intro replicaId hseen
    rcases List.mem_cons.mp hseen with rfl | hseen
    · exact Or.inr hanswers
    · exact hat.seen replicaId hseen
  case isFalse hanswers =>
    refine triple_get_bind fun fleet hat => triple_pure ?_
    rintro _ rfl
    refine ⟨decide_eq_true ?_, hat⟩
    obtain ⟨createdAt, hcreated⟩ := Option.isSome_iff_exists.mp hcurrent.finished
    have hid := fate.replicaId_of hcurrent.of
    have hhealthy := hsmooth.healthy before hcurrent.mem createdAt
      (by rw [← hcurrent.createdAt, hcreated]; rfl)
    rw [← hid] at hhealthy
    obtain ⟨hunseen, hgrace⟩ := hhealthy.resolve_left hanswers
    refine ⟨fun hseen => ?_, ?_⟩
    · exact (hat.seen _ hseen).elim hunseen hanswers
    · rw [hcreated]
      exact decide_eq_true hgrace

omit [DecidableEq AgentName] in
theorem triple_forget (replicaId : ReplicaId) :
    Triple (At answers start fate requested) (forget replicaId)
      (fun _ => At answers start fate requested) raised := by
  apply triple_modify
  intro fleet hat
  refine ⟨hat.mem_iff, hat.requested_iff, ?_⟩
  intro other hseen
  exact hat.seen other (List.mem_of_mem_filter hseen)

omit [DecidableEq AgentName] in
theorem triple_takeDown (hsmooth : Smooth answers start) (replicaId : ReplicaId) :
    Triple (At answers start fate requested) (takeDown answers replicaId)
      (fun _ => At answers start (fate.andThen (Fate.goes.only fun id => id = replicaId)) requested)
      raised := by
  refine (triple_attempt hsmooth _).bind fun _ => ?_
  refine Triple.bind (triple_modify fun fleet hat => ?_) fun _ => triple_attempt hsmooth _
  exact hat.change replicaId Fate.goes

theorem triple_drainReplica (hsmooth : Smooth answers start)
    (hcurrent : Current start fate before record) :
    Triple (At answers start fate requested) (drainReplica answers record)
      (fun gone fleet => gone = leaves answers record ∧
        At answers start (fate.andThen ((drained answers).only fun id => id = record.replicaId))
          requested fleet) raised := by
  unfold drainReplica
  split
  case isTrue hdatabase =>
    have hleaves : leaves answers record = true := by
      rw [leaves, hdatabase, Bool.true_or, Bool.true_or]
    have htaken : Triple (At answers start fate requested) (do
          takeDown answers record.replicaId
          pure true) (fun _ => At answers start
            (fate.andThen ((drained answers).only fun id => id = record.replicaId)) requested)
          raised := by
      refine (triple_takeDown hsmooth _).bind fun _ => triple_pure fun _ hat => ?_
      exact hat.change_congr hcurrent (if_pos hleaves).symm
    have hremoved : Triple (At answers start fate requested)
        (removeWithoutDraining answers record.replicaId) (fun _ => At answers start
          (fate.andThen ((drained answers).only fun id => id = record.replicaId)) requested)
        raised := by
      refine (triple_forget _).bind fun _ => Triple.bind ?_ fun _ => triple_pure fun _ => id
      apply triple_get_bind
      intro fleet hat
      rw [hat.find hcurrent]
      apply Triple.of_pre htaken
      rintro _ rfl
      exact hat
    exact hremoved.bind fun _ => triple_pure fun _ hat => ⟨hleaves.symm, hat⟩
  case isFalse hdatabase =>
    have hleaves : leaves answers record = decide (answers.idle record.replicaId ∨
        drainTimeout ≤ answers.now - record.drainingAt.getD answers.now) := by
      rw [Bool.not_eq_true] at hdatabase
      rw [leaves, hdatabase, Bool.false_or, Bool.decide_or, Bool.decide_eq_true]
    have hremoved : Triple (At answers start fate requested)
        (removeReplica answers record.replicaId true) (fun gone fleet =>
          gone = leaves answers record ∧ At answers start
            (fate.andThen ((drained answers).only fun id => id = record.replicaId)) requested fleet)
        raised := by
      apply triple_get_bind
      intro fleet hat
      rw [hat.find hcurrent]
      have hdrain : Triple (fun state => state = fleet) (drain answers record) (fun goes after =>
          goes = leaves answers record ∧ At answers start
            (fate.andThen ((marked (record.drainingAt.getD answers.now)).only fun id =>
              id = record.replicaId)) requested after)
          raised := by
        refine Triple.bind (triple_modify fun _ hfleet => ?_) fun _ =>
          (triple_attempt hsmooth _).bind fun _ => triple_pure fun after hafter =>
            ⟨hleaves.symm, hafter⟩
        rw [hfleet]
        exact hat.change record.replicaId (marked _)
      refine hdrain.bind fun goes => triple_of_imp ?_
      rintro rfl
      split
      case isTrue hgoes =>
        refine (triple_takeDown hsmooth _).bind fun _ => triple_pure fun _ hafter =>
          ⟨hgoes.symm, ?_⟩
        have hboth := hafter.only_andThen_only
        exact hboth.change_congr hcurrent (if_pos hgoes).symm
      case isFalse hgoes =>
        refine triple_pure fun _ hafter => ⟨((Bool.not_eq_true _).mp hgoes).symm, ?_⟩
        exact hafter.change_congr hcurrent (if_neg hgoes).symm
    refine (triple_isHealthy hsmooth hcurrent).bind fun healthy => triple_of_imp ?_
    rintro rfl
    refine hremoved.bind fun removed => triple_of_imp fun hgone => ?_
    split
    · exact (triple_forget _).bind fun _ => triple_pure fun _ hat => ⟨hgone, hat⟩
    · exact triple_pure fun _ hat => ⟨hgone, hat⟩

/-! ### The removals of a pass -/

/-- What becomes of an agent's replica, with the surplus and the requests of its agent. -/
def ifUnwanted (answers : Answers agentOf LaunchId) (surplus requests : List ReplicaId) :
    Fate LaunchId ReplicaId where
  of record :=
    if HasReason surplus requests record then (drained answers).of record else some record
  replicaId_of hafter := by
    split at hafter
    · exact (drained answers).replicaId_of hafter
    · rw [← Option.some.inj hafter]

omit [LinearOrder ReplicaId] in
theorem isSome_drained (record : Record LaunchId ReplicaId) :
    ((drained answers).of record).isSome = !leaves answers record := by
  rw [drained]
  cases hleaves : leaves answers record <;> simp [hleaves]

theorem triple_removeIfUnwanted (hsmooth : Smooth answers start)
    (hcurrent : Current start fate before record) {surplus requests : List ReplicaId}
    (hrequests : requested record.replicaId → record.replicaId ∈ requests) :
    Triple (At answers start fate requested) (removeIfUnwanted answers surplus requests record)
      (fun _ => At answers start
        (fate.andThen ((ifUnwanted answers surplus requests).only fun id => id = record.replicaId))
        fun other => requested other ∧ (other = record.replicaId →
          ((ifUnwanted answers surplus requests).of record).isSome = true)) raised := by
  have hdrain (hreason : HasReason surplus requests record) : Triple (At answers start fate requested) (do
          let removed ← drainReplica answers record
          if removed then
            clearRequests fun replicaId => replicaId = record.replicaId && replicaId ∈ requests)
      (fun _ => At answers start
        (fate.andThen ((ifUnwanted answers surplus requests).only fun id => id = record.replicaId))
        fun other => requested other ∧ (other = record.replicaId →
          ((ifUnwanted answers surplus requests).of record).isSome = true)) raised := by
    have hof : (drained answers).of record = (ifUnwanted answers surplus requests).of record :=
      (if_pos hreason).symm
    refine (triple_drainReplica hsmooth hcurrent).bind fun removed => triple_of_imp ?_
    rintro rfl
    rw [← hof, isSome_drained]
    split
    case isTrue hleaves =>
      refine triple_modify fun fleet hat => ?_
      have hat := hat.change_congr hcurrent hof
      refine ⟨hat.mem_iff, ?_, hat.seen⟩
      intro other
      rw [List.mem_filter, hat.requested_iff, hleaves, Bool.not_true]
      apply and_congr_right
      intro hother
      rw [Bool.not_eq_true', Bool.and_eq_false_iff, decide_eq_false_iff_not,
        decide_eq_false_iff_not]
      constructor
      · rintro (hne | hfree) rfl
        · exact absurd rfl hne
        · exact absurd (hrequests hother) hfree
      · intro hnone
        exact Or.inl fun hsame => Bool.false_ne_true (hnone hsame)
    case isFalse hleaves =>
      refine triple_pure fun fleet hat => ?_
      have hat := hat.change_congr hcurrent hof
      refine ⟨hat.mem_iff, ?_, hat.seen⟩
      intro other
      rw [hat.requested_iff, (Bool.not_eq_true _).mp hleaves]
      exact ⟨fun hother => ⟨hother, fun _ => rfl⟩, And.left⟩
  unfold removeIfUnwanted removalReason
  by_cases hdraining : record.drainingAt.isSome = true
  · rw [if_pos hdraining, pure_bind]
    exact hdrain (Or.inl hdraining)
  by_cases hrequested : record.replicaId ∈ requests
  · rw [if_neg hdraining, if_pos hrequested, pure_bind]
    exact hdrain (Or.inr (Or.inl hrequested))
  by_cases hsurplus : record.replicaId ∈ surplus
  · rw [if_neg hdraining, if_neg hrequested, if_pos hsurplus, pure_bind]
    exact hdrain (Or.inr (Or.inr hsurplus))
  rw [if_neg hdraining, if_neg hrequested, if_neg hsurplus, bind_assoc]
  refine (triple_isHealthy hsmooth hcurrent).bind fun healthy => triple_of_imp ?_
  rintro rfl
  have hof : (ifUnwanted answers surplus requests).of record = some record :=
    if_neg (not_or.mpr ⟨hdraining, not_or.mpr ⟨hrequested, hsurplus⟩⟩)
  refine triple_pure fun fleet hat => ⟨(hat.only_of_stays hcurrent hof).mem_iff, ?_, hat.seen⟩
  intro other
  rw [hat.requested_iff, hof]
  exact ⟨fun hother => ⟨hother, fun _ => rfl⟩, And.left⟩

omit [DecidableEq AgentName] in
/-- One record after the other. -/
theorem At.only_append {change : Fate LaunchId ReplicaId} {done : List ReplicaId}
    {last : ReplicaId} (hat : At answers start
      ((fate.andThen (change.only fun id => id ∈ done)).andThen (change.only fun id => id = last))
      requested fleet) (hlast : last ∉ done) :
    At answers start (fate.andThen (change.only fun id => id ∈ done ++ [last])) requested
      fleet := by
  apply hat.congr
  intro other _
  rw [Fate.of_andThen, Fate.of_andThen, Fate.of_andThen, Option.bind_assoc]
  apply congrArg (fate.of other).bind
  funext middle
  rw [Fate.of_only, Fate.of_only]
  simp only [List.mem_append, List.mem_singleton]
  by_cases hdone : middle.replicaId ∈ done
  · rw [if_pos (decide_eq_true hdone), if_pos (decide_eq_true (Or.inl hdone))]
    cases hafter : change.of middle with
    | none => rfl
    | some after =>
        have hne : after.replicaId ≠ last := by
          rw [change.replicaId_of hafter]
          exact fun hid => hlast (hid ▸ hdone)
        rw [Option.bind_some, Fate.of_only, if_neg (by simpa using hne)]
  · rw [if_neg (by simpa using hdone), Option.bind_some, Fate.of_only]
    by_cases hid : middle.replicaId = last
    · rw [if_pos (decide_eq_true hid), if_pos (decide_eq_true (Or.inr hid))]
    · rw [if_neg (by simpa using hid), if_neg (by simp [hdone, hid])]

omit [DecidableEq AgentName] in
/-- A loop over records that are as they were at the start. -/
theorem triple_forM_at (change : Fate LaunchId ReplicaId)
    (asked : List (Record LaunchId ReplicaId) → ReplicaId → Prop)
    {items : List (Record LaunchId ReplicaId)}
    {body : Record LaunchId ReplicaId → Pass LaunchId ReplicaId Unit}
    (hnodup : (items.map Record.replicaId).Nodup)
    (hstays : ∀ record ∈ items, fate.of record = some record)
    (hbody : ∀ done, ∀ record ∈ items, ∀ fate : Fate LaunchId ReplicaId,
      fate.of record = some record →
        Triple (At answers start fate (asked done)) (body record) (fun _ => At answers start
          (fate.andThen (change.only fun id => id = record.replicaId)) (asked (done ++ [record])))
          raised) :
    Triple (At answers start fate (asked [])) (items.forM body)
      (fun _ => At answers start
        (fate.andThen (change.only fun id => id ∈ items.map Record.replicaId)) (asked items))
      raised := by
  have hloop : Triple
      (At answers start (fate.andThen (change.only fun id => id ∈ ([] : List ReplicaId)))
        (asked []))
      (items.forM body)
      (fun _ => At answers start
        (fate.andThen (change.only fun id => id ∈ items.map Record.replicaId)) (asked items))
      raised := by
    refine @triple_forM _ _ _ _ _ (fun done _ => At answers start
      (fate.andThen (change.only fun id => id ∈ done.map Record.replicaId)) (asked done)) _ ?_
    intro done record rest hsplit
    have hmem : record ∈ items := hsplit ▸ List.mem_append_right _ List.mem_cons_self
    have hnew : record.replicaId ∉ done.map Record.replicaId := by
      rw [hsplit, List.map_append, List.map_cons] at hnodup
      intro hdone
      exact (List.nodup_append.mp hnodup).2.2 _ hdone _ List.mem_cons_self rfl
    refine (hbody done record hmem _ ?_).imp fun _ fleet hat => ?_
    · rw [Fate.of_andThen, hstays record hmem, Option.bind_some, Fate.of_only,
        if_neg (by simpa using hnew)]
    · rw [List.map_append]
      exact hat.only_append hnew
  apply hloop.of_pre
  intro fleet hat
  apply hat.congr
  intro other _
  rw [Fate.of_andThen]
  cases fate.of other with
  | none => rfl
  | some middle => rw [Option.bind_some, Fate.of_only, if_neg (by simp)]

/-- The loop of `_remove_unwanted`. -/
theorem triple_forM_removeIfUnwanted (hsmooth : Smooth answers start)
    {replicas : List (Record LaunchId ReplicaId)} {surplus requests : List ReplicaId}
    (hnodup : (replicas.map Record.replicaId).Nodup)
    (hcurrent : ∀ record ∈ replicas, Current start fate record record)
    (hrequests : ∀ record ∈ replicas, requested record.replicaId → record.replicaId ∈ requests) :
    Triple (At answers start fate requested)
      (replicas.forM (removeIfUnwanted answers surplus requests))
      (fun _ => At answers start
        (fate.andThen ((ifUnwanted answers surplus requests).only fun id =>
          id ∈ replicas.map Record.replicaId))
        fun other => requested other ∧ ∀ record ∈ replicas, other = record.replicaId →
          ((ifUnwanted answers surplus requests).of record).isSome = true) raised := by
  refine Triple.of_pre (triple_forM_at (ifUnwanted answers surplus requests)
    (fun done other => requested other ∧ ∀ record ∈ done, other = record.replicaId →
      ((ifUnwanted answers surplus requests).of record).isSome = true) hnodup
    (fun record hmem => (hcurrent record hmem).of) ?_) ?_
  · intro done record hmem fate' hfate
    have hcurrent' : Current start fate' record record := { hcurrent record hmem with of := hfate }
    refine (triple_removeIfUnwanted hsmooth hcurrent' fun hother =>
      hrequests record hmem hother.1).imp fun _ fleet hat => ⟨hat.mem_iff, ?_, hat.seen⟩
    intro other
    rw [hat.requested_iff, and_assoc]
    apply and_congr_right
    intro _
    simp only [List.mem_append, List.mem_singleton, or_imp, forall_and, forall_eq]
  · intro fleet hat
    refine ⟨hat.mem_iff, ?_, hat.seen⟩
    intro other
    rw [hat.requested_iff]
    exact ⟨fun hother => ⟨hother, fun _ hmem => absurd hmem List.not_mem_nil⟩, And.left⟩

omit [DecidableEq AgentName] in
/-- What is listed of untouched records is what was listed at the start. -/
theorem At.listReplicas_eq (hat : At answers start fate requested fleet)
    {listed : Record LaunchId ReplicaId → Bool} (untouched : ReplicaId → Prop)
    (hlisted : ∀ record, listed record = true → untouched record.replicaId)
    (hstays : ∀ before ∈ start.records, untouched before.replicaId →
      fate.of before = some before) :
    listReplicas listed fleet = listReplicas listed start := by
  have hmem (record : Record LaunchId ReplicaId) (hrecord : listed record = true) :
      record ∈ fleet.records ↔ record ∈ start.records := by
    rw [hat.mem_iff]
    constructor
    · rintro ⟨before, hbefore, hfate⟩
      have huntouched := hlisted record hrecord
      rw [fate.replicaId_of hfate] at huntouched
      rw [hstays before hbefore huntouched, Option.some.injEq] at hfate
      rwa [← hfate]
    · intro hrecord'
      exact ⟨record, hrecord', hstays record hrecord' (hlisted record hrecord)⟩
  have hperm : (listReplicas listed fleet).Perm (listReplicas listed start) := by
    refine (List.perm_insertionSort byKey _).trans (List.Perm.trans ?_
      (List.perm_insertionSort byKey _).symm)
    apply (List.perm_ext_iff_of_nodup ((fleet.nodup.of_map _).filter _)
      ((start.nodup.of_map _).filter _)).mpr
    intro record
    rw [List.mem_filter, List.mem_filter, Bool.and_eq_true]
    constructor
    · rintro ⟨hrecord, hlisted, hfinished⟩
      exact ⟨(hmem record hlisted).mp hrecord, hlisted, hfinished⟩
    · rintro ⟨hrecord, hlisted, hfinished⟩
      exact ⟨(hmem record hlisted).mpr hrecord, hlisted, hfinished⟩
  refine List.Perm.eq_of_pairwise ?_ (List.pairwise_insertionSort byKey _)
    (List.pairwise_insertionSort byKey _) hperm
  intro first second hfirst hsecond hle hge
  exact Fleet.eq_of_mem (mem_listReplicas.mp (hperm.mem_iff.mp hfirst)).1
    (mem_listReplicas.mp hsecond).1 (le_antisymm hle hge)

/-- The agent's replicas, as `_remove_unwanted` lists them. -/
def instancesOf (agentOf : ReplicaId → AgentName) (fleet : Fleet LaunchId ReplicaId)
    (agentName : AgentName) : List (Record LaunchId ReplicaId) :=
  listReplicas (fun record => agentOf record.replicaId = agentName && record.isInstance) fleet

/-- What `_remove_unwanted` makes of the records. -/
def swept (answers : Answers agentOf LaunchId) (start : Fleet LaunchId ReplicaId) :
    Fate LaunchId ReplicaId where
  of record :=
    match specOf answers (agentOf record.replicaId) with
    | none => some record
    | some spec =>
        if record.isInstance ∧ record.createdAt.isSome then
          (ifUnwanted answers
            (surplusOf spec.replicas (instancesOf agentOf start (agentOf record.replicaId)))
            start.replaceRequests).of record
        else some record
  replicaId_of {before after} hafter := by
    split at hafter
    · rw [← Option.some.inj hafter]
    · split at hafter
      · exact (ifUnwanted answers _ _).replicaId_of hafter
      · rw [← Option.some.inj hafter]

theorem swept_of_instance {spec : AgentSpec AgentName}
    (hspec : specOf answers (agentOf record.replicaId) = some spec)
    (hinstance : record.isInstance = true ∧ record.createdAt.isSome = true) :
    (swept answers start).of record = (ifUnwanted answers
      (surplusOf spec.replicas (instancesOf agentOf start (agentOf record.replicaId)))
      start.replaceRequests).of record := by
  simp only [swept, hspec, if_pos hinstance]

theorem swept_of_not_instance (hinstance : ¬ (record.isInstance = true ∧
    record.createdAt.isSome = true)) : (swept answers start).of record = some record := by
  simp only [swept, if_neg hinstance]
  split <;> rfl

/-- The requests left once some agents are checked. -/
def Requested (answers : Answers agentOf LaunchId) (start : Fleet LaunchId ReplicaId)
    (done : List AgentName) (replicaId : ReplicaId) : Prop :=
  replicaId ∈ start.replaceRequests ∧ (agentOf replicaId ∈ done →
    ∃ record ∈ instancesOf agentOf start (agentOf replicaId), record.replicaId = replicaId ∧
      ((swept answers start).of record).isSome = true)

theorem mem_instancesOf {agentName : AgentName} :
    record ∈ instancesOf agentOf fleet agentName ↔
      record ∈ fleet.records ∧ agentOf record.replicaId = agentName ∧ record.isInstance = true ∧
        record.createdAt.isSome = true := by
  rw [instancesOf, mem_listReplicas, Bool.and_eq_true, decide_eq_true_eq, and_assoc]

theorem nodup_listReplicas (listed : Record LaunchId ReplicaId → Bool)
    (fleet : Fleet LaunchId ReplicaId) :
    ((listReplicas listed fleet).map Record.replicaId).Nodup := by
  refine ((List.perm_insertionSort byKey _).map _).nodup_iff.mpr ?_
  exact fleet.nodup.sublist (List.filter_sublist.map _)

theorem triple_removeUnwanted (hsmooth : Smooth answers start) {agentName : AgentName}
    {done : List AgentName} {spec : AgentSpec AgentName} (hnew : agentName ∉ done)
    (hspec : specOf answers agentName = some spec) :
    Triple (At answers start ((swept answers start).only fun id => agentOf id ∈ done)
        (Requested answers start done)) (removeUnwanted answers agentName)
      (fun _ => At answers start
        ((swept answers start).only fun id => agentOf id ∈ done ++ [agentName])
        (Requested answers start (done ++ [agentName]))) raised := by
  have hstays : ∀ before ∈ start.records, agentOf before.replicaId = agentName →
      ((swept answers start).only fun id => agentOf id ∈ done).of before = some before := by
    intro before _ hagent
    rw [Fate.of_only, if_neg (by simpa [hagent] using hnew)]
  unfold removeUnwanted
  rw [hspec]
  refine (triple_attempt hsmooth _).bind fun _ => triple_get_bind fun fleet hat => ?_
  have hreplicas : listReplicas (fun record =>
      agentOf record.replicaId = agentName && record.isInstance) fleet =
        instancesOf agentOf start agentName := by
    refine hat.listReplicas_eq (fun id => agentOf id = agentName) ?_ hstays
    intro record hlisted
    exact of_decide_eq_true (Bool.and_eq_true _ _ ▸ hlisted).1
  rw [hreplicas]
  generalize hrequests : fleet.replaceRequests.filter (fun id => agentOf id = agentName) = requests
  have hasked (record : Record LaunchId ReplicaId) (hagent : agentOf record.replicaId = agentName) :
      record.replicaId ∈ requests ↔ record.replicaId ∈ start.replaceRequests := by
    rw [← hrequests, List.mem_filter, hat.requested_iff, Requested, hagent]
    simp [hnew]
  have hof : ∀ record ∈ instancesOf agentOf start agentName,
      (ifUnwanted answers (surplusOf spec.replicas (instancesOf agentOf start agentName))
        requests).of record = (swept answers start).of record := by
    intro record hrecord
    obtain ⟨-, hagent, hinstance, hfinished⟩ := mem_instancesOf.mp hrecord
    rw [← hagent] at hspec hasked
    rw [swept_of_instance hspec ⟨hinstance, hfinished⟩, hagent]
    exact if_congr (or_congr_right (or_congr_left (hasked record rfl))) rfl rfl
  have hclear : Triple (fun state => state = fleet)
      (clearRequests fun replicaId => replicaId ∈ requests &&
        replicaId ∉ (instancesOf agentOf start agentName).map Record.replicaId)
      (fun _ => At answers start ((swept answers start).only fun id => agentOf id ∈ done)
        fun other => Requested answers start done other ∧ ¬ (other ∈ requests ∧
          other ∉ (instancesOf agentOf start agentName).map Record.replicaId)) raised := by
    refine triple_modify ?_
    rintro _ rfl
    refine ⟨hat.mem_iff, ?_, hat.seen⟩
    intro other
    rw [List.mem_filter, hat.requested_iff, Bool.not_eq_true', Bool.and_eq_false_iff,
      decide_eq_false_iff_not, decide_eq_false_iff_not, not_and_or]
  refine hclear.bind fun _ => ?_
  have hnodup : ((instancesOf agentOf start agentName).map Record.replicaId).Nodup :=
    nodup_listReplicas _ start
  refine Triple.bind ((triple_forM_removeIfUnwanted hsmooth hnodup ?_ ?_).imp ?_)
    fun _ => triple_pure fun _ => id
  · intro record hrecord
    obtain ⟨hmem, hagent, -, hfinished⟩ := mem_instancesOf.mp hrecord
    exact ⟨hmem, hstays record hmem hagent, rfl, hfinished⟩
  · intro record hrecord hasked'
    rw [← hrequests]
    exact List.mem_filter.mpr ⟨(hat.requested_iff _).mpr hasked'.1,
      decide_eq_true (mem_instancesOf.mp hrecord).2.1⟩
  · intro _ after hafter
    refine ⟨(hafter.congr ?_).mem_iff, ?_, hafter.seen⟩
    · intro before hbefore
      rw [Fate.of_andThen, Fate.of_only, Fate.of_only]
      have hids : before.replicaId ∈
          (instancesOf agentOf start agentName).map Record.replicaId ↔
            before ∈ instancesOf agentOf start agentName := by
        constructor
        · intro hid
          obtain ⟨found, hfound, hid⟩ := List.mem_map.mp hid
          rwa [← Fleet.eq_of_mem (mem_instancesOf.mp hfound).1 hbefore hid]
        · exact List.mem_map_of_mem
      by_cases hdone : agentOf before.replicaId ∈ done
      · rw [if_pos (decide_eq_true hdone),
          if_pos (decide_eq_true (List.mem_append_left _ hdone))]
        cases hswept : (swept answers start).of before with
        | none => rfl
        | some current =>
            have hid := (swept answers start).replicaId_of hswept
            rw [Option.bind_some, Fate.of_only, if_neg]
            rw [decide_eq_true_eq, hid, hids]
            intro hinstance
            exact hnew ((mem_instancesOf.mp hinstance).2.1 ▸ hdone)
      · rw [if_neg (by simpa using hdone), Option.bind_some, Fate.of_only]
        by_cases hagent : agentOf before.replicaId = agentName
        · rw [if_pos (decide_eq_true (List.mem_append_right _ (List.mem_singleton.mpr hagent)))]
          by_cases hinstance : before ∈ instancesOf agentOf start agentName
          · rw [if_pos (decide_eq_true (hids.mpr hinstance)), hof before hinstance]
          · rw [if_neg (by rwa [decide_eq_true_eq, hids]), swept_of_not_instance]
            intro hlisted
            exact hinstance (mem_instancesOf.mpr ⟨hbefore, hagent, hlisted⟩)
        · rw [if_neg, if_neg]
          · simp [hdone, hagent]
          · rw [decide_eq_true_eq, hids]
            exact fun hinstance => hagent (mem_instancesOf.mp hinstance).2.1
    · intro other
      rw [hafter.requested_iff]
      by_cases hagent : agentOf other = agentName
      · have hother : Requested answers start done other ↔ other ∈ start.replaceRequests := by
          simp [Requested, hagent, hnew]
        have hother' : other ∈ requests ↔ other ∈ start.replaceRequests := by
          rw [← hrequests, List.mem_filter, hat.requested_iff, hother]
          simp [hagent]
        rw [hother, hother', Requested, hagent]
        constructor
        · rintro ⟨⟨hasked, hlisted⟩, hstays⟩
          refine ⟨hasked, fun _ => ?_⟩
          have hid := not_not.mp (not_and.mp hlisted hasked)
          obtain ⟨record, hrecord, rfl⟩ := List.mem_map.mp hid
          exact ⟨record, hrecord, rfl, hof record hrecord ▸ hstays record hrecord rfl⟩
        · rintro ⟨hasked, hstays⟩
          obtain ⟨record, hrecord, rfl, hsome⟩ :=
            hstays (List.mem_append_right _ List.mem_cons_self)
          refine ⟨⟨hasked, fun hlisted => hlisted.2 (List.mem_map_of_mem hrecord)⟩, ?_⟩
          intro found hfound hid
          rw [Fleet.eq_of_mem (mem_instancesOf.mp hfound).1 (mem_instancesOf.mp hrecord).1 hid.symm,
            hof record hrecord]
          exact hsome
      · have hfree : other ∉ requests := by
          rw [← hrequests]
          exact fun hmem => hagent (of_decide_eq_true (List.mem_filter.mp hmem).2)
        have hdone : agentOf other ∈ done ++ [agentName] ↔ agentOf other ∈ done := by
          simp [hagent]
        rw [Requested, Requested, hdone]
        constructor
        · exact fun hother => hother.1.1
        · refine fun hother => ⟨⟨hother, fun hlisted => hfree hlisted.1⟩, ?_⟩
          rintro found hfound rfl
          exact absurd (mem_instancesOf.mp hfound).2.1 hagent

/-- What the removals of a pass make of the records. -/
def removed (answers : Answers agentOf LaunchId) (start : Fleet LaunchId ReplicaId) :
    Fate LaunchId ReplicaId where
  of record :=
    if record.createdAt.isNone then none
    else if (specOf answers (agentOf record.replicaId)).isNone then (drained answers).of record
    else (swept answers start).of record
  replicaId_of {before after} hafter := by
    split at hafter
    · cases hafter
    · split at hafter
      · exact (drained answers).replicaId_of hafter
      · exact (swept answers start).replicaId_of hafter

omit [LinearOrder ReplicaId] in
theorem triple_caught_smooth {Value : Type} {otherwise : Value}
    {program : Pass LaunchId ReplicaId Value} {before : Fleet LaunchId ReplicaId → Prop}
    {after : Value → Fleet LaunchId ReplicaId → Prop}
    (hprogram : Triple before program after fun _ _ => False) :
    Triple before (caught otherwise program) after raised :=
  hprogram.tryCatch fun _ _ hfalse => hfalse.elim

omit [LinearOrder ReplicaId] in
theorem exists_specOf {agentName : AgentName}
    (hmem : agentName ∈ answers.agentSpecs.map AgentSpec.name) :
    ∃ spec, specOf answers agentName = some spec := by
  obtain ⟨spec, hspec, rfl⟩ := List.mem_map.mp hmem
  apply Option.isSome_iff_exists.mp
  rw [specOf, List.find?_isSome]
  exact ⟨spec, hspec, decide_eq_true rfl⟩

omit [LinearOrder ReplicaId] in
theorem mem_of_specOf {agentName : AgentName} {spec : AgentSpec AgentName}
    (hspec : specOf answers agentName = some spec) :
    spec ∈ answers.agentSpecs ∧ spec.name = agentName := by
  refine ⟨List.mem_of_find?_eq_some hspec, ?_⟩
  simpa using List.find?_some hspec

theorem triple_removeUnwanted_all (hsmooth : Smooth answers start) :
    Triple (At answers start Fate.stays (· ∈ start.replaceRequests))
      ((answers.agentSpecs.map AgentSpec.name).mapM fun agentName =>
        caught false (removeUnwanted answers agentName))
      (fun _ => At answers start (swept answers start)
        (Requested answers start (answers.agentSpecs.map AgentSpec.name))) raised := by
  refine Triple.weaken (@triple_mapM _ _ _ _ raised _ (fun done _ _ =>
    At answers start ((swept answers start).only fun id => agentOf id ∈ done)
      (Requested answers start done)) (answers.agentSpecs.map AgentSpec.name) ?_)
      ?_ ?_ fun _ _ => id
  · intro done agentName rest _ hsplit
    have hmem : agentName ∈ answers.agentSpecs.map AgentSpec.name :=
      hsplit ▸ List.mem_append_right _ List.mem_cons_self
    obtain ⟨spec, hspec⟩ := exists_specOf hmem
    have hnew : agentName ∉ done := by
      have hnodup := answers.names_nodup
      rw [hsplit] at hnodup
      intro hdone
      exact (List.nodup_append.mp hnodup).2.2 _ hdone _ List.mem_cons_self rfl
    exact triple_caught_smooth (triple_removeUnwanted hsmooth hnew hspec)
  · intro fleet hat
    refine ⟨(hat.congr ?_).mem_iff, ?_, hat.seen⟩
    · intro before _
      rw [Fate.of_only, if_neg (by simp)]
      rfl
    · intro other
      rw [hat.requested_iff, Requested]
      exact ⟨fun hasked => ⟨hasked, fun hnone => absurd hnone List.not_mem_nil⟩, And.left⟩
  · intro _ fleet hat
    apply hat.congr
    intro before _
    rw [Fate.of_only]
    split
    case isTrue => rfl
    case isFalse hnone =>
      cases hspec : specOf answers (agentOf before.replicaId) with
      | none => simp only [swept, hspec]
      | some spec =>
          refine absurd (decide_eq_true ?_) hnone
          obtain ⟨hmem, hname⟩ := mem_of_specOf hspec
          exact List.mem_map.mpr ⟨spec, hmem, hname⟩

/-- The replicas of removed agents. -/
def removedAgents (answers : Answers agentOf LaunchId) (fleet : Fleet LaunchId ReplicaId) :
    List (Record LaunchId ReplicaId) :=
  listReplicas (fun record => (specOf answers (agentOf record.replicaId)).isNone) fleet

theorem triple_removeReplicasOfRemovedAgents (hsmooth : Smooth answers start) :
    Triple (At answers start (swept answers start) requested)
      (removeReplicasOfRemovedAgents answers)
      (fun _ => At answers start ((swept answers start).andThen ((drained answers).only fun id =>
        id ∈ (removedAgents answers start).map Record.replicaId)) requested) raised := by
  have hstays : ∀ before ∈ start.records,
      (specOf answers (agentOf before.replicaId)).isNone = true →
        (swept answers start).of before = some before := by
    intro before _ hnone
    simp only [swept, Option.isNone_iff_eq_none.mp hnone]
  refine (triple_attempt hsmooth _).bind fun _ => triple_get_bind fun fleet hat => ?_
  have hreplicas : listReplicas (fun record =>
      (specOf answers (agentOf record.replicaId)).isNone) fleet = removedAgents answers start :=
    hat.listReplicas_eq (fun id => (specOf answers (agentOf id)).isNone = true) (fun _ => id) hstays
  rw [hreplicas]
  have hnodup : ((removedAgents answers start).map Record.replicaId).Nodup :=
    nodup_listReplicas _ start
  refine Triple.of_pre (triple_forM_at (drained answers) (fun _ => requested) hnodup ?_ ?_)
    fun _ hfleet => hfleet ▸ hat
  · intro record hrecord
    obtain ⟨hmem, hnone, -⟩ := mem_listReplicas.mp hrecord
    exact hstays record hmem hnone
  · intro done record hrecord fate' hfate
    obtain ⟨hmem, -, hfinished⟩ := mem_listReplicas.mp hrecord
    exact (triple_drainReplica hsmooth ⟨hmem, hfate, rfl, hfinished⟩).bind fun _ =>
      triple_pure fun _ => And.right

omit [LinearOrder ReplicaId] in
theorem createdAt_of_drained (hafter : (drained answers).of before = some record) :
    record.createdAt = before.createdAt := by
  simp only [drained] at hafter
  split_ifs at hafter
  rw [← Option.some.inj hafter]

theorem createdAt_of_swept (hafter : (swept answers start).of before = some record) :
    record.createdAt = before.createdAt := by
  simp only [swept, ifUnwanted] at hafter
  split at hafter
  · rw [← Option.some.inj hafter]
  · split_ifs at hafter
    · exact createdAt_of_drained hafter
    · rw [← Option.some.inj hafter]
    · rw [← Option.some.inj hafter]

theorem createdAt_of_removed (hafter : (removed answers start).of before = some record) :
    record.createdAt = before.createdAt ∧ record.createdAt.isSome = true := by
  simp only [removed] at hafter
  split at hafter
  · cases hafter
  · rename_i hnone
    have hcreated : record.createdAt = before.createdAt := by
      split at hafter
      · exact createdAt_of_drained hafter
      · exact createdAt_of_swept hafter
    refine ⟨hcreated, ?_⟩
    rw [hcreated, Option.isSome_iff_ne_none]
    exact mt Option.isNone_iff_eq_none.mpr hnone

theorem triple_removeUnfinished (hsmooth : Smooth answers start) :
    Triple (At answers start ((swept answers start).andThen ((drained answers).only fun id =>
        id ∈ (removedAgents answers start).map Record.replicaId)) requested)
      (removeUnfinished answers)
      (fun _ => At answers start (removed answers start) requested) raised := by
  refine (triple_attempt hsmooth _).bind fun _ => triple_get_bind fun fleet hat => ?_
  have hremoved (before : Record LaunchId ReplicaId) (hbefore : before ∈ start.records) :
      before.replicaId ∈ (removedAgents answers start).map Record.replicaId ↔
        (specOf answers (agentOf before.replicaId)).isNone = true ∧
          before.createdAt.isSome = true := by
    constructor
    · intro hid
      obtain ⟨found, hfound, hid⟩ := List.mem_map.mp hid
      obtain ⟨hmem, hlisted⟩ := mem_listReplicas.mp hfound
      rwa [Fleet.eq_of_mem hmem hbefore hid] at hlisted
    · exact fun hlisted => List.mem_map_of_mem (mem_listReplicas.mpr ⟨hbefore, hlisted⟩)
  have hunfinished (current : Record LaunchId ReplicaId) (hcurrent : current ∈ fleet.records) :
      current.replicaId ∈ (fleet.records.filter fun record => record.createdAt.isNone).map
        Record.replicaId ↔ current.createdAt.isNone = true := by
    constructor
    · intro hid
      obtain ⟨found, hfound, hid⟩ := List.mem_map.mp hid
      obtain ⟨hmem, hnone⟩ := List.mem_filter.mp hfound
      rwa [Fleet.eq_of_mem hmem hcurrent hid] at hnone
    · exact fun hnone => List.mem_map_of_mem (List.mem_filter.mpr ⟨hcurrent, hnone⟩)
  have hof (before : Record LaunchId ReplicaId) (hbefore : before ∈ start.records) :
      ((swept answers start).andThen ((drained answers).only fun id =>
          id ∈ (removedAgents answers start).map Record.replicaId)).of before =
        if before.createdAt.isNone then some before else (removed answers start).of before := by
    rw [Fate.of_andThen]
    by_cases hnone : before.createdAt.isNone = true
    · have hfinished : before.createdAt.isSome ≠ true := by
        rwa [Ne, Option.isSome_iff_ne_none, not_not, ← Option.isNone_iff_eq_none]
      rw [if_pos hnone, swept_of_not_instance fun hinstance => hfinished hinstance.2,
        Option.bind_some, Fate.of_only, if_neg]
      rw [decide_eq_true_eq, hremoved before hbefore]
      exact fun hlisted => hfinished hlisted.2
    · rw [if_neg hnone]
      simp only [removed, if_neg hnone]
      by_cases hremovedAgent : (specOf answers (agentOf before.replicaId)).isNone = true
      · have hfinished := Option.isSome_iff_ne_none.mpr (mt Option.isNone_iff_eq_none.mpr hnone)
        have hswept : (swept answers start).of before = some before := by
          simp only [swept, Option.isNone_iff_eq_none.mp hremovedAgent]
        rw [hswept, if_pos hremovedAgent, Option.bind_some, Fate.of_only, if_pos]
        exact decide_eq_true ((hremoved before hbefore).mpr ⟨hremovedAgent, hfinished⟩)
      · rw [if_neg hremovedAgent]
        cases hswept : (swept answers start).of before with
        | none => rfl
        | some current =>
            rw [Option.bind_some, Fate.of_only, if_neg]
            rw [decide_eq_true_eq, (swept answers start).replicaId_of hswept,
              hremoved before hbefore]
            exact fun hlisted => hremovedAgent hlisted.1
  have hnodup : ((fleet.records.filter fun record => record.createdAt.isNone).map
      Record.replicaId).Nodup := fleet.nodup.sublist (List.filter_sublist.map _)
  refine Triple.weaken (triple_forM_at Fate.goes (fun _ => requested) hnodup ?_ ?_)
    (fun _ hfleet => hfleet ▸ hat) ?_ fun _ _ => id
  · intro record hrecord
    obtain ⟨hmem, hnone⟩ := List.mem_filter.mp hrecord
    obtain ⟨before, hbefore, hfate⟩ := (hat.mem_iff record).mp hmem
    have hsame : before = record := by
      rw [hof before hbefore] at hfate
      split_ifs at hfate with hunlaunched
      · exact Option.some.inj hfate
      · rw [(createdAt_of_removed hfate).1] at hnone
        exact absurd hnone hunlaunched
    rw [hsame] at hbefore hfate
    exact hfate
  · intro done record _ fate' _
    refine triple_caught_smooth ((triple_attempt hsmooth _).bind fun _ => triple_modify ?_)
    intro _ hat
    exact hat.change record.replicaId Fate.goes
  · intro _ after hafter
    apply hafter.congr
    intro before hbefore
    have hbefore' := hof before hbefore
    rw [Fate.of_andThen, hbefore']
    split_ifs at hbefore' ⊢ with hnone
    · have hids := (hunfinished before ((hat.mem_iff before).mpr ⟨before, hbefore, hbefore'⟩)).mpr
        hnone
      rw [Option.bind_some, Fate.of_only, if_pos (decide_eq_true hids)]
      simp only [removed, if_pos hnone, Fate.goes]
    · cases hremoved : (removed answers start).of before with
      | none => rfl
      | some current =>
          have hcurrent := (hat.mem_iff current).mpr ⟨before, hbefore, hbefore'.trans hremoved⟩
          have hfinished := (createdAt_of_removed hremoved).2
          rw [Option.bind_some, Fate.of_only, if_neg]
          rw [decide_eq_true_eq, hunfinished current hcurrent]
          intro hnone'
          rw [Option.isNone_iff_eq_none.mp hnone'] at hfinished
          cases hfinished

/-! ### The launches of a pass -/

omit [DecidableEq AgentName] in
theorem triple_findReplica_smooth (hsmooth : Smooth answers start)
    (hfinished : record.createdAt.isSome = true)
    (hrunning : answers.running record.replicaId = true) :
    Triple (fun state => state = fleet) (findReplica answers record)
      (fun found after => found = (if record.drainingAt.isSome then .gone else .runs) ∧
        after = fleet) raised := by
  have hlaunched : record.createdAt.isNone = false := Option.isNone_eq_false_iff.mpr hfinished
  unfold findReplica
  split
  · exact triple_pure fun _ hafter => ⟨rfl, hafter⟩
  · rw [hlaunched, if_neg Bool.false_ne_true]
    exact (triple_attempt hsmooth _).bind fun _ => triple_pure fun _ hafter => ⟨rfl, hafter⟩

/-- The agent's replicas that run and do not drain. -/
theorem triple_countReplicas_smooth (hsmooth : Smooth answers start)
    (hrecords : ∀ record ∈ fleet.records,
      record.createdAt.isSome = true ∧ answers.running record.replicaId = true)
    (spec : AgentSpec AgentName) :
    Triple (fun state => state = fleet) (countReplicas answers spec)
      (fun counts after =>
        counts = ((fleet.staying agentOf spec.name).map Record.replicaId,
          spec.replicas - (fleet.staying agentOf spec.name).length) ∧ after = fleet) raised := by
  apply triple_get_bind
  intro state hstate
  rw [hstate]
  have hstaying : fleet.staying agentOf spec.name =
      (fleet.records.filter fun record => agentOf record.replicaId = spec.name).filter
        fun record => record.drainingAt = none := by
    rw [List.filter_filter, Fleet.staying]
    apply List.filter_congr
    intro record _
    rw [Bool.and_comm, Bool.decide_and]
  have hmem : ∀ record ∈ fleet.records.filter fun record => agentOf record.replicaId = spec.name,
      record ∈ fleet.records := fun record => List.mem_of_mem_filter
  generalize fleet.records.filter (fun record => agentOf record.replicaId = spec.name) = records
    at hstaying hmem ⊢
  have hloop : Triple (fun state => ([] : List (ReplicaId × Found)) =
        ([] : List (Record LaunchId ReplicaId)).map (fun record =>
          (record.replicaId, if record.drainingAt.isSome then Found.gone else .runs)) ∧
        state = fleet)
      (records.mapM fun record => do
        let found ← findReplica answers record
        pure (record.replicaId, found))
      (fun found after => found = records.map (fun record =>
          (record.replicaId, if record.drainingAt.isSome then Found.gone else .runs)) ∧
        after = fleet) raised := by
    refine @triple_mapM _ _ _ _ raised _ (fun done _ found after =>
      found = done.map (fun record =>
        (record.replicaId, if record.drainingAt.isSome then Found.gone else .runs)) ∧
      after = fleet) records ?_
    intro done record rest found hsplit
    refine triple_of_imp fun hfound => ?_
    have hrecord : record ∈ records := hsplit ▸ List.mem_append_right _ List.mem_cons_self
    obtain ⟨hfinished, hrunning⟩ := hrecords record (hmem record hrecord)
    refine (triple_findReplica_smooth hsmooth hfinished hrunning).bind fun value => ?_
    refine triple_of_imp fun hvalue => triple_pure fun after hafter => ⟨?_, hafter⟩
    rw [hfound, hvalue, List.map_append]
    rfl
  refine (hloop.of_pre fun _ hstate => ⟨rfl, hstate⟩).bind fun found => ?_
  refine triple_of_imp fun hfound => triple_pure fun after hafter => ⟨?_, hafter⟩
  have hruns : (fun entry : ReplicaId × Found => decide (entry.2 = .runs)) ∘
      (fun record : Record LaunchId ReplicaId =>
        (record.replicaId, if record.drainingAt.isSome then Found.gone else .runs)) =
      fun record => decide (record.drainingAt = none) := by
    funext record
    cases hdraining : record.drainingAt <;> simp [hdraining]
  have hstays : (fun entry : ReplicaId × Found => decide (entry.2 ≠ .gone)) ∘
      (fun record : Record LaunchId ReplicaId =>
        (record.replicaId, if record.drainingAt.isSome then Found.gone else .runs)) =
      fun record => decide (record.drainingAt = none) := by
    funext record
    cases hdraining : record.drainingAt <;> simp [hdraining]
  rw [hfound, hstaying, List.filter_map, List.filter_map, List.map_map, List.length_map, hruns,
    hstays]
  rfl

/-- The new records stand beside the others. -/
structure Placed (answers : Answers agentOf LaunchId) (fleet : Fleet LaunchId ReplicaId)
    (placed : List ReplicaId) (after : Fleet LaunchId ReplicaId) : Prop where
  mem_iff : ∀ record, record ∈ after.records ↔ record ∈ fleet.records ∨
    record.replicaId ∈ placed ∧ ∃ machine,
      answers.place record.replicaId = some (machine, true) ∧
        record = ⟨record.replicaId, machine, none, none, false⟩
  requests : after.replaceRequests = fleet.replaceRequests
  seen : after.seenHealthy = fleet.seenHealthy

omit [DecidableEq AgentName] in
theorem triple_placed_smooth {wanted : List ReplicaId} (hnodup : wanted.Nodup)
    (hnew : ∀ replicaId ∈ wanted, replicaId ∉ fleet.replicaIds)
    (hplaces : ∀ replicaId ∈ wanted, ∃ machine,
      answers.place replicaId = some (machine, true)) :
    Triple (fun state => state = fleet) (wanted.mapM (placeReplica answers))
      (fun placed after => placed.flatten = wanted ∧ Placed answers fleet wanted after)
      raised := by
  refine Triple.weaken (@triple_mapM _ _ _ _ raised _ (fun done _ placed after =>
    placed.flatten = done ∧ Placed answers fleet done after) wanted ?_) ?_ (fun _ _ => id)
    fun _ _ => id
  · intro done replicaId rest placed hsplit
    refine triple_of_imp fun hplaced => triple_get_bind fun current hcurrent => ?_
    have hmem : replicaId ∈ wanted := hsplit ▸ List.mem_append_right _ List.mem_cons_self
    have hfree : replicaId ∉ current.replicaIds := by
      intro hin
      obtain ⟨record, hrecord, rfl⟩ := List.mem_map.mp hin
      rcases (hcurrent.mem_iff record).mp hrecord with hold | ⟨hdone, -⟩
      · exact hnew _ hmem (Fleet.mem_replicaIds hold)
      · rw [hsplit] at hnodup
        exact (List.nodup_append.mp hnodup).2.2 _ hdone _ List.mem_cons_self rfl
    obtain ⟨machine, hplace⟩ := hplaces replicaId hmem
    rw [dif_pos hfree, hplace]
    refine Triple.bind (triple_set ?_) fun _ => triple_pure fun _ => id
    rintro _ -
    refine ⟨by rw [List.flatten_append, hplaced, List.flatten_singleton], ?_,
      hcurrent.requests, hcurrent.seen⟩
    intro record
    rw [Fleet.add, List.mem_cons, hcurrent.mem_iff]
    constructor
    · rintro (rfl | hold | ⟨hdone, hrecord⟩)
      · exact Or.inr ⟨List.mem_append_right _ List.mem_cons_self, machine, hplace, rfl⟩
      · exact Or.inl hold
      · exact Or.inr ⟨List.mem_append_left _ hdone, hrecord⟩
    · rintro (hold | ⟨hdone, machine', hplace', hrecord⟩)
      · exact Or.inr (Or.inl hold)
      · rcases List.mem_append.mp hdone with hdone | hlast
        · exact Or.inr (Or.inr ⟨hdone, machine', hplace', hrecord⟩)
        · have hid := List.mem_singleton.mp hlast
          rw [hid, hplace, Option.some.injEq, Prod.mk.injEq] at hplace'
          exact Or.inl (by rw [hrecord, hid, hplace'.1])
  · rintro _ rfl
    exact ⟨rfl, fun record => ⟨Or.inl, fun hor => hor.resolve_right fun hnone =>
      List.not_mem_nil hnone.1⟩, rfl, rfl⟩

def launched (answers : Answers agentOf LaunchId) : Fate LaunchId ReplicaId where
  of record := some { record with createdAt := some (answers.createdAt record.replicaId) }
  replicaId_of hafter := by rw [← Option.some.inj hafter]

def registered : Fate LaunchId ReplicaId where
  of record := some { record with isInstance := true }
  replicaId_of hafter := by rw [← Option.some.inj hafter]

omit [DecidableEq AgentName] in
theorem triple_launches {placed : List ReplicaId} (hnodup : placed.Nodup)
    (hlaunches : ∀ replicaId ∈ placed, answers.launches replicaId = .finishes) :
    Triple (fun state => state = fleet)
      (placed.mapM fun replicaId => do
        let launched ← launchReplica answers replicaId
        pure (replicaId, launched))
      (fun launches after => launches = placed.map (fun replicaId => (replicaId, true)) ∧
        At answers fleet (Fate.stays.andThen ((launched answers).only fun id => id ∈ placed))
          (· ∈ fleet.replaceRequests) after) raised := by
  refine Triple.weaken (@triple_mapM _ _ _ _ raised _ (fun done _ launches after =>
    launches = done.map (fun replicaId => (replicaId, true)) ∧
      At answers fleet (Fate.stays.andThen ((launched answers).only fun id => id ∈ done))
        (· ∈ fleet.replaceRequests) after) placed ?_) ?_ (fun _ _ => id) fun _ _ => id
  · intro done replicaId rest launches hsplit
    refine triple_of_imp fun hdone => ?_
    have hmem : replicaId ∈ placed := hsplit ▸ List.mem_append_right _ List.mem_cons_self
    have hnew : replicaId ∉ done := by
      rw [hsplit] at hnodup
      exact fun hdone => (List.nodup_append.mp hnodup).2.2 _ hdone _ List.mem_cons_self rfl
    have hlaunch : Triple
        (At answers fleet (Fate.stays.andThen ((launched answers).only fun id => id ∈ done))
          (· ∈ fleet.replaceRequests)) (launchReplica answers replicaId)
        (fun value after => value = true ∧ At answers fleet
          (Fate.stays.andThen ((launched answers).only fun id => id ∈ done ++ [replicaId]))
          (· ∈ fleet.replaceRequests) after) raised := by
      rw [launchReplica, hlaunches replicaId hmem]
      refine Triple.bind (triple_modify fun current hat => ?_) fun _ =>
        triple_pure fun _ hat => ⟨rfl, hat⟩
      exact (hat.change replicaId (launched answers)).only_append hnew
    refine hlaunch.bind fun value => triple_of_imp fun hvalue => triple_pure fun _ hat => ⟨?_, hat⟩
    rw [hdone, hvalue, List.map_append]
    rfl
  · rintro _ rfl
    refine ⟨rfl, ?_, fun _ => Iff.rfl, fun _ => Or.inl⟩
    intro record
    simp [Fate.of_andThen, Fate.of_only, Fate.stays]

omit [DecidableEq AgentName] in
theorem triple_registers {placed : List ReplicaId} (ids : List ReplicaId) :
    Triple (At answers fleet (Fate.stays.andThen ((launched answers).only fun id => id ∈ placed))
        requested)
      (ids.forM register)
      (fun _ => At answers fleet
        ((Fate.stays.andThen ((launched answers).only fun id => id ∈ placed)).andThen
          (registered.only fun id => id ∈ ids)) requested) raised := by
  refine Triple.of_pre (@triple_forM _ _ _ raised _ (fun done _ => At answers fleet
    ((Fate.stays.andThen ((launched answers).only fun id => id ∈ placed)).andThen
      (registered.only fun id => id ∈ done)) requested) ids ?_) ?_
  · intro done replicaId rest _
    apply triple_modify
    intro current hat
    apply (hat.change replicaId registered).congr
    intro before _
    rw [Fate.of_andThen, Fate.of_andThen, Fate.of_andThen, Option.bind_assoc]
    apply congrArg (Option.bind _)
    funext middle
    rw [Fate.of_only, Fate.of_only]
    simp only [List.mem_append, List.mem_singleton]
    by_cases hid : middle.replicaId = replicaId
    · subst hid
      by_cases hdone : middle.replicaId ∈ done <;> simp [hdone, registered, Fate.of_only]
    · by_cases hdone : middle.replicaId ∈ done <;> simp [hdone, hid, registered, Fate.of_only]
  · intro current hat
    apply hat.congr
    intro before _
    rw [Fate.of_andThen _ (registered.only _)]
    cases (Fate.stays.andThen ((launched answers).only fun id => id ∈ placed)).of before with
    | none => rfl
    | some middle => rw [Option.bind_some, Fate.of_only, if_neg (by simp)]

/-- The missing replicas stand beside the others, which are registered. -/
structure Filled (answers : Answers agentOf LaunchId) (fleet after : Fleet LaunchId ReplicaId) :
    Prop where
  mem_iff : ∀ record, record ∈ after.records ↔
    (∃ before ∈ fleet.records, record = { before with
      isInstance := before.isInstance || before.drainingAt.isNone &&
        (specOf answers (agentOf before.replicaId)).isSome }) ∨
    ∃ spec ∈ answers.agentSpecs,
      ∃ index < spec.replicas - (fleet.staying agentOf spec.name).length, ∃ machine,
        answers.place (answers.draw spec.name index) = some (machine, true) ∧
          record = ⟨answers.draw spec.name index, machine,
            some (answers.createdAt (answers.draw spec.name index)), none, true⟩
  requests : ∀ replicaId, replicaId ∈ after.replaceRequests ↔ replicaId ∈ fleet.replaceRequests

/-- The IDs drawn for the missing replicas. -/
def wantedIds (answers : Answers agentOf LaunchId) (fleet : Fleet LaunchId ReplicaId) :
    List ReplicaId :=
  answers.agentSpecs.flatMap fun spec =>
    (List.range (spec.replicas - (fleet.staying agentOf spec.name).length)).map
      (answers.draw spec.name)

omit [LinearOrder ReplicaId] in
theorem mem_wantedIds {replicaId : ReplicaId} :
    replicaId ∈ wantedIds answers fleet ↔ ∃ spec ∈ answers.agentSpecs,
      ∃ index < spec.replicas - (fleet.staying agentOf spec.name).length,
        answers.draw spec.name index = replicaId := by
  simp [wantedIds]

omit [LinearOrder ReplicaId] in
theorem nodup_wantedIds (hsmooth : Smooth answers start) : (wantedIds answers fleet).Nodup := by
  apply List.nodup_flatMap.mpr
  constructor
  · intro spec _
    exact List.nodup_range.map (hsmooth.draw_injective spec.name)
  · apply (List.pairwise_map.mp answers.names_nodup).imp
    intro first second hne replicaId hfirst hsecond
    obtain ⟨index, -, rfl⟩ := List.mem_map.mp hfirst
    obtain ⟨other, -, hsame⟩ := List.mem_map.mp hsecond
    have hagent := congrArg agentOf hsame
    rw [answers.agentOf_draw, answers.agentOf_draw] at hagent
    exact hne hagent.symm

/-- The replicas that run. -/
def runningIds (answers : Answers agentOf LaunchId) (fleet : Fleet LaunchId ReplicaId) :
    List ReplicaId :=
  answers.agentSpecs.flatMap fun spec => (fleet.staying agentOf spec.name).map Record.replicaId

omit [LinearOrder ReplicaId] in
theorem mem_runningIds (hrecord : record ∈ fleet.records) :
    record.replicaId ∈ runningIds answers fleet ↔ record.drainingAt = none ∧
      (specOf answers (agentOf record.replicaId)).isSome = true := by
  constructor
  · intro hmem
    obtain ⟨spec, hspec, hid⟩ := List.mem_flatMap.mp hmem
    obtain ⟨found, hfound, hid⟩ := List.mem_map.mp hid
    obtain ⟨hfound, hstays⟩ := List.mem_filter.mp hfound
    obtain ⟨hagent, hstays⟩ := of_decide_eq_true hstays
    rw [Fleet.eq_of_mem hfound hrecord hid] at hagent hstays
    have hname : agentOf record.replicaId ∈ answers.agentSpecs.map AgentSpec.name :=
      List.mem_map.mpr ⟨spec, hspec, hagent.symm⟩
    obtain ⟨found, hfound⟩ := exists_specOf hname
    exact ⟨hstays, by rw [hfound]; rfl⟩
  · rintro ⟨hstays, hspec⟩
    obtain ⟨spec, hspec⟩ := Option.isSome_iff_exists.mp hspec
    obtain ⟨hmem, hname⟩ := mem_of_specOf hspec
    refine List.mem_flatMap.mpr ⟨spec, hmem, List.mem_map_of_mem ?_⟩
    exact List.mem_filter.mpr ⟨hrecord, decide_eq_true ⟨hname.symm, hstays⟩⟩

theorem filled_of_at {placed after : Fleet LaunchId ReplicaId}
    (hnew : ∀ agentName index, answers.draw agentName index ∉ fleet.replicaIds)
    (hplaced : Placed answers fleet (wantedIds answers fleet) placed)
    (hat : At answers placed
      ((Fate.stays.andThen ((launched answers).only fun id => id ∈ wantedIds answers fleet)).andThen
        (registered.only fun id => id ∈ runningIds answers fleet ++ wantedIds answers fleet))
      (· ∈ placed.replaceRequests) after) :
    Filled answers fleet after := by
  have hof (record : Record LaunchId ReplicaId) :
      ((Fate.stays.andThen ((launched answers).only fun id => id ∈ wantedIds answers fleet)).andThen
        (registered.only fun id => id ∈ runningIds answers fleet ++ wantedIds answers fleet)).of
          record = some
        { record with
          createdAt := if record.replicaId ∈ wantedIds answers fleet then
            some (answers.createdAt record.replicaId) else record.createdAt
          isInstance := if record.replicaId ∈ runningIds answers fleet ++ wantedIds answers fleet
            then true else record.isInstance } := by
    by_cases hwanted : record.replicaId ∈ wantedIds answers fleet <;>
      by_cases hrunning : record.replicaId ∈ runningIds answers fleet <;>
        simp [Fate.of_andThen, Fate.of_only, Fate.stays, launched, registered, hwanted, hrunning]
  have hold (before : Record LaunchId ReplicaId) (hbefore : before ∈ fleet.records) :
      { before with
        createdAt := if before.replicaId ∈ wantedIds answers fleet then
          some (answers.createdAt before.replicaId) else before.createdAt
        isInstance := if before.replicaId ∈ runningIds answers fleet ++ wantedIds answers fleet
          then true else before.isInstance } =
      { before with
        isInstance := before.isInstance || before.drainingAt.isNone &&
          (specOf answers (agentOf before.replicaId)).isSome } := by
    have hfree : before.replicaId ∉ wantedIds answers fleet := by
      intro hmem
      obtain ⟨spec, -, index, -, hdraw⟩ := mem_wantedIds.mp hmem
      exact hnew spec.name index (hdraw ▸ Fleet.mem_replicaIds hbefore)
    rw [if_neg hfree]
    congr 1
    by_cases hrunning : before.replicaId ∈ runningIds answers fleet
    · obtain ⟨hstays, hspec⟩ := (mem_runningIds hbefore).mp hrunning
      rw [if_pos (List.mem_append_left _ hrunning), hstays, hspec]
      exact (Bool.or_true _).symm
    · rw [if_neg fun hmem => (List.mem_append.mp hmem).elim hrunning hfree]
      rw [mem_runningIds hbefore, ← Option.isNone_iff_eq_none, ← Bool.and_eq_true,
        Bool.not_eq_true] at hrunning
      rw [hrunning, Bool.or_false]
  constructor
  · intro record
    rw [hat.mem_iff]
    constructor
    · rintro ⟨before, hbefore, hrecord⟩
      rw [hof, Option.some.injEq] at hrecord
      rcases (hplaced.mem_iff before).mp hbefore with hmem | ⟨hwanted, machine, hplace, hsame⟩
      · exact Or.inl ⟨before, hmem, by rw [← hrecord, hold before hmem]⟩
      · right
        obtain ⟨spec, hspec, index, hindex, hdraw⟩ := mem_wantedIds.mp hwanted
        refine ⟨spec, hspec, index, hindex, machine, hdraw ▸ hplace, ?_⟩
        rw [← hrecord, if_pos hwanted, if_pos (List.mem_append_right _ hwanted), hsame, hdraw]
    · rintro (⟨before, hbefore, rfl⟩ | ⟨spec, hspec, index, hindex, machine, hplace, rfl⟩)
      · exact ⟨before, (hplaced.mem_iff before).mpr (Or.inl hbefore),
          by rw [hof, hold before hbefore]⟩
      · have hwanted : answers.draw spec.name index ∈ wantedIds answers fleet :=
          mem_wantedIds.mpr ⟨spec, hspec, index, hindex, rfl⟩
        refine ⟨⟨answers.draw spec.name index, machine, none, none, false⟩,
          (hplaced.mem_iff _).mpr (Or.inr ⟨hwanted, machine, hplace, rfl⟩), ?_⟩
        rw [hof, if_pos hwanted, if_pos (List.mem_append_right _ hwanted)]
  · intro replicaId
    rw [hat.requested_iff, hplaced.requests]

theorem triple_ensureReplicas_smooth (hsmooth : Smooth answers start)
    (hrecords : ∀ record ∈ fleet.records,
      record.createdAt.isSome = true ∧ answers.running record.replicaId = true)
    (hnew : ∀ agentName index, answers.draw agentName index ∉ fleet.replicaIds) :
    Triple (fun state => state = fleet) (ensureReplicas answers)
      (fun _ => Filled answers fleet) raised := by
  have hspecs : (answers.agentSpecs.filter fun spec =>
      answers.named.all fun names => spec.name ∈ names) = answers.agentSpecs := by
    rw [hsmooth.named]
    exact List.filter_eq_self.mpr fun _ _ => rfl
  have hcounts : Triple (fun state => state = fleet)
      (answers.agentSpecs.mapM (countReplicas answers))
      (fun counts after => counts = answers.agentSpecs.map (fun spec =>
          ((fleet.staying agentOf spec.name).map Record.replicaId,
            spec.replicas - (fleet.staying agentOf spec.name).length)) ∧ after = fleet)
      raised := by
    refine Triple.of_pre (@triple_mapM _ _ _ _ raised _ (fun done _ counts after =>
      counts = done.map (fun spec => ((fleet.staying agentOf spec.name).map Record.replicaId,
        spec.replicas - (fleet.staying agentOf spec.name).length)) ∧ after = fleet)
      answers.agentSpecs ?_) fun _ hstate => ⟨rfl, hstate⟩
    intro done spec rest counts _
    refine triple_of_imp fun hdone => ?_
    refine (triple_countReplicas_smooth hsmooth hrecords spec).imp ?_
    rintro count after ⟨hcount, hafter⟩
    exact ⟨by rw [hdone, hcount, List.map_append]; rfl, hafter⟩
  unfold ensureReplicas
  rw [hspecs]
  refine hcounts.bind fun counts => triple_of_imp ?_
  rintro rfl
  have hwanted : (answers.agentSpecs.flatMap fun spec =>
      (List.range (spec.replicas - (fleet.staying agentOf spec.name).length)).map
        (answers.draw spec.name)) = wantedIds answers fleet := rfl
  rw [← List.map_prod_left_eq_zip, List.flatMap_map]
  dsimp only
  rw [hwanted]
  have hplaces (replicaId : ReplicaId) (hmem : replicaId ∈ wantedIds answers fleet) :
      replicaId ∉ fleet.replicaIds ∧ (∃ machine,
        answers.place replicaId = some (machine, true)) ∧
          answers.launches replicaId = .finishes := by
    obtain ⟨spec, -, index, -, rfl⟩ := mem_wantedIds.mp hmem
    exact ⟨hnew _ _, hsmooth.places _ _, hsmooth.launches _ _⟩
  refine (triple_placed_smooth (nodup_wantedIds hsmooth) (fun id hmem => (hplaces id hmem).1)
    fun id hmem => (hplaces id hmem).2.1).bind fun placed => triple_of_imp fun hplaced => ?_
  rw [hplaced]
  apply triple_of_forall
  intro current hcurrent
  refine (triple_launches (nodup_wantedIds hsmooth) fun id hmem => (hplaces id hmem).2.2).bind
    fun launches => triple_of_imp ?_
  rintro rfl
  refine (triple_attempt hsmooth _).bind fun _ => ?_
  have hids : ((answers.agentSpecs.map fun spec =>
      ((fleet.staying agentOf spec.name).map Record.replicaId,
        spec.replicas - (fleet.staying agentOf spec.name).length)).flatMap Prod.fst) ++
      (((wantedIds answers fleet).map fun replicaId => (replicaId, true)).filter Prod.snd).map
        Prod.fst = runningIds answers fleet ++ wantedIds answers fleet := by
    rw [List.flatMap_map, List.filter_map, List.map_map]
    congr 1
    exact (congrArg _ (List.filter_eq_self.mpr fun _ _ => rfl)).trans (List.map_id _)
  rw [hids]
  refine (triple_registers _).bind fun _ => (triple_attempt hsmooth _).bind fun _ => ?_
  rw [if_pos (by simp)]
  exact triple_pure fun after hat => filled_of_at hnew hcurrent hat

/-- What a smooth pass makes of the replicas. -/
def Passed (answers : Answers agentOf LaunchId) (start after : Fleet LaunchId ReplicaId) : Prop :=
  ∃ middle, At answers start (removed answers start)
      (Requested answers start (answers.agentSpecs.map AgentSpec.name)) middle ∧
    Filled answers middle after

theorem triple_reconcile_smooth [DecidableEq LaunchId] (hsmooth : Smooth answers start) :
    Triple (fun state => state = start) (reconcile answers)
      (fun _ => Passed answers start) raised := by
  have hensure (middle : Fleet LaunchId ReplicaId)
      (hat : At answers start (removed answers start)
        (Requested answers start (answers.agentSpecs.map AgentSpec.name)) middle) :
      Triple (fun state => state = middle) (ensureReplicas answers)
        (fun _ => Passed answers start) fun _ _ => False := by
    refine (triple_ensureReplicas_smooth hsmooth ?_ ?_).imp fun _ after hfilled =>
      ⟨middle, hat, hfilled⟩
    · intro record hrecord
      obtain ⟨before, hbefore, hfate⟩ := (hat.mem_iff record).mp hrecord
      rw [(removed answers start).replicaId_of hfate]
      exact ⟨(createdAt_of_removed hfate).2, hsmooth.running before hbefore⟩
    · intro agentName index hmem
      obtain ⟨record, hrecord, hid⟩ := List.mem_map.mp hmem
      obtain ⟨before, hbefore, hfate⟩ := (hat.mem_iff record).mp hrecord
      apply hsmooth.draw_new agentName index
      rw [← hid, (removed answers start).replicaId_of hfate]
      exact Fleet.mem_replicaIds hbefore
  unfold reconcile provision
  rw [hsmooth.dead, hsmooth.surplus, hsmooth.imagesReady, hsmooth.stopping, hsmooth.named]
  have hnothing {program : Pass LaunchId ReplicaId Unit} {holds : Fleet LaunchId ReplicaId → Prop}
      {raised : Failure → Fleet LaunchId ReplicaId → Prop} :
      Triple holds (onlyIf (([] : List LaunchId) ≠ []) program) (fun _ => holds) raised :=
    triple_onlyIf (fun hsome => absurd rfl (of_decide_eq_true hsome)) fun _ => id
  refine (triple_caught_smooth ((triple_attempt hsmooth _).bind fun _ => hnothing)).bind fun _ => ?_
  refine (triple_attempt hsmooth _).bind fun _ => ?_
  rw [if_neg Bool.false_ne_true]
  refine ((triple_removeUnwanted_all hsmooth).of_pre ?_).bind fun checked => ?_
  · rintro _ rfl
    refine ⟨fun record => ?_, fun _ => Iff.rfl, fun _ => Or.inl⟩
    simp [Fate.stays]
  refine Triple.bind (triple_caught_smooth (triple_removeReplicasOfRemovedAgents hsmooth))
    fun _ => ?_
  refine (triple_caught_smooth (triple_removeUnfinished hsmooth)).bind fun _ => ?_
  refine triple_caught_smooth ((triple_attempt hsmooth _).bind fun _ => hnothing.bind fun _ => ?_)
  exact triple_of_forall hensure

end Smooth

end CanyonOS.Reconciler.Passes
