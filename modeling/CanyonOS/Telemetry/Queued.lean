import CanyonOS.Telemetry.Delivered

/-!
# Delivered means queued

What a pass of `deliver_completed_requests` knows after each of its loops, kept whatever calls do
meanwhile, and from it what a marker stands for.
-/

namespace CanyonOS.Telemetry

open Interference

variable {Machine : Type} [DecidableEq Machine]

/-! ### What goes on meanwhile -/

/-- A marker stays as it is, or is given an expiry it did not have. -/
theorem marker_advance (delivery : Delivery Machine) (step : CallStep Machine) (machine : Machine)
    (requestId : Id) :
    (delivery.advance step).marker machine requestId = delivery.marker machine requestId ∨
      delivery.marker machine requestId = some none ∧
        ((delivery.advance step).marker machine requestId).isSome := by
  cases step with
  | addFuture | write => exact Or.inl rfl
  | expireMarker other otherId time =>
      simp only [Delivery.advance]
      split
      · rename_i hmarker
        by_cases hmachine : machine = other
        · subst hmachine
          by_cases hrequest : requestId = otherId
          · subst hrequest
            exact Or.inr ⟨hmarker, by simp [Delivery.setMarker, Delivery.record]⟩
          · left
            simp [Delivery.setMarker, Delivery.record, hrequest]
        · left
          simp [Delivery.setMarker, Delivery.record, hmachine]
      · exact Or.inl rfl

/-- The log grows by the expiry given to a marker, if by anything. -/
theorem log_advance (delivery : Delivery Machine) (step : CallStep Machine) :
    (delivery.advance step).log = delivery.log ∨
      ∃ machine requestId time,
        (delivery.advance step).log = delivery.log ++ [.expires machine requestId time] ∧
          (delivery.advance step).marker machine requestId = some (some time) := by
  cases step with
  | addFuture | write => exact Or.inl rfl
  | expireMarker machine requestId time =>
      simp only [Delivery.advance]
      split
      · right
        exact ⟨machine, requestId, time, rfl, by simp [Delivery.setMarker, Delivery.record]⟩
      · exact Or.inl rfl

theorem queue_advance (delivery : Delivery Machine) (step : CallStep Machine) :
    (delivery.advance step).queue = delivery.queue := by
  cases step with
  | addFuture | write => rfl
  | expireMarker machine requestId time =>
      simp only [Delivery.advance]
      split <;> rfl

/-- What is said of the log alone is stable when an expiry given does not matter to it. -/
theorem stable_log {property : List (Event Machine) → Prop}
    (hexpires : ∀ log machine requestId time, property log →
      property (log ++ [.expires machine requestId time])) :
    Stable Delivery.advance fun delivery : Delivery Machine => property delivery.log := by
  intro delivery step hlog
  rcases log_advance delivery step with hsame | ⟨machine, requestId, time, hgrown, -⟩
  · rw [hsame]
    exact hlog
  · rw [hgrown]
    exact hexpires _ _ _ _ hlog

/-! ### What the commands before the markers keep -/

/-- Kept by what goes on meanwhile and by every command that creates no marker. -/
structure Frame (kept : Delivery Machine → Prop) : Prop where
  stable : Stable Delivery.advance kept
  listed : ∀ delivery machine requestId futures, kept delivery →
    kept (delivery.record (.listed machine requestId futures))
  read : ∀ delivery machine futureId record, kept delivery →
    kept (delivery.record (.read machine futureId record))
  committed : ∀ (delivery : Delivery Machine) rows, kept delivery →
    kept ({ delivery with queue := traceWriteRows rows delivery.queue }.record (.committed rows))

theorem Frame.and {left right : Delivery Machine → Prop} (hleft : Frame left)
    (hright : Frame right) : Frame fun delivery => left delivery ∧ right delivery where
  stable := hleft.stable.and hright.stable
  listed delivery machine requestId futures hkept :=
    ⟨hleft.listed delivery machine requestId futures hkept.1,
      hright.listed delivery machine requestId futures hkept.2⟩
  read delivery machine futureId record hkept :=
    ⟨hleft.read delivery machine futureId record hkept.1,
      hright.read delivery machine futureId record hkept.2⟩
  committed delivery rows hkept :=
    ⟨hleft.committed delivery rows hkept.1, hright.committed delivery rows hkept.2⟩

/-- What is said of the log is kept when every entry but a marker's creation keeps it. -/
theorem frame_log {property : List (Event Machine) → Prop}
    (hevent : ∀ log event, (∀ machine requestId, event ≠ .marked machine requestId) →
      property log → property (log ++ [event])) :
    Frame fun delivery : Delivery Machine => property delivery.log where
  stable := stable_log fun log machine requestId time => hevent log _ (by simp)
  listed delivery machine requestId futures := hevent delivery.log _ (by simp)
  read delivery machine futureId record := hevent delivery.log _ (by simp)
  committed delivery rows := hevent delivery.log _ (by simp)

theorem stable_markersKept (initial : Stores Machine) :
    Stable Delivery.advance (MarkersKept initial) := by
  intro delivery step hkept
  have hset : ∀ machine requestId time,
      delivery.marker machine requestId = some (some time) →
        (delivery.advance step).marker machine requestId = some (some time) := by
    intro machine requestId time hmarker
    rcases marker_advance delivery step machine requestId with hsame | ⟨hnone, -⟩
    · rw [hsame, hmarker]
    · rw [hmarker] at hnone
      cases hnone
  constructor
  · intro machine requestId hinitial
    rcases marker_advance delivery step machine requestId with hsame | ⟨-, hsome⟩
    · rw [hsame]
      exact hkept.marker machine requestId hinitial
    · exact hsome
  · intro machine requestId time hinitial
    exact hset machine requestId time (hkept.expiry machine requestId time hinitial)
  · intro machine requestId time hmem
    rcases log_advance delivery step with hsame | ⟨other, otherId, other', hgrown, hmarker⟩
    · rw [hsame] at hmem
      exact hset machine requestId time (hkept.expires machine requestId time hmem)
    · rw [hgrown] at hmem
      rcases List.mem_append.mp hmem with hold | hnew
      · exact hset machine requestId time (hkept.expires machine requestId time hold)
      · cases List.mem_singleton.mp hnew
        exact hmarker
  · intro machine requestId hsome
    have hbefore : (delivery.marker machine requestId).isSome := by
      rcases marker_advance delivery step machine requestId with hsame | ⟨hnone, -⟩
      · rw [← hsame]
        exact hsome
      · rw [hnone]
        rfl
    refine (hkept.created machine requestId hbefore).imp id fun hmem => ?_
    rcases log_advance delivery step with hsame | ⟨other, otherId, other', hgrown, -⟩
    · rw [hsame]
      exact hmem
    · rw [hgrown]
      exact List.mem_append_left _ hmem

omit [DecidableEq Machine] in
/-- A command that leaves the markers alone keeps what holds of them. -/
theorem MarkersKept.of_marker_eq {initial : Stores Machine} {delivery next : Delivery Machine}
    {event : Event Machine} (hkept : MarkersKept initial delivery)
    (hmarker : next.marker = delivery.marker) (hlog : next.log = delivery.log ++ [event])
    (hevent : ∀ machine requestId time, event ≠ .expires machine requestId time) :
    MarkersKept initial next where
  marker machine requestId hinitial := by
    rw [hmarker]
    exact hkept.marker machine requestId hinitial
  expiry machine requestId time hinitial := by
    rw [hmarker]
    exact hkept.expiry machine requestId time hinitial
  expires machine requestId time hmem := by
    rw [hmarker]
    rw [hlog] at hmem
    rcases List.mem_append.mp hmem with hold | hnew
    · exact hkept.expires machine requestId time hold
    · exact absurd (List.mem_singleton.mp hnew).symm (hevent machine requestId time)
  created machine requestId hsome := by
    rw [hmarker] at hsome
    rw [hlog]
    exact (hkept.created machine requestId hsome).imp id (List.mem_append_left _)

theorem frame_markersKept (initial : Stores Machine) : Frame (MarkersKept initial) where
  stable := stable_markersKept initial
  listed _ _ _ _ hkept := hkept.of_marker_eq rfl rfl (by simp)
  read _ _ _ _ hkept := hkept.of_marker_eq rfl rfl (by simp)
  committed _ _ hkept := hkept.of_marker_eq rfl rfl (by simp)

/-- These requests have their marker on every machine. -/
def Marked (machines : List Machine) (marked : List Id) (delivery : Delivery Machine) : Prop :=
  ∀ requestId ∈ marked, ∀ machine ∈ machines, (delivery.marker machine requestId).isSome

theorem stable_isSome_marker (machine : Machine) (requestId : Id) :
    Stable Delivery.advance fun delivery : Delivery Machine =>
      (delivery.marker machine requestId).isSome = true := by
  intro delivery step hsome
  rcases marker_advance delivery step machine requestId with hsame | ⟨-, hafter⟩
  · rw [hsame]
    exact hsome
  · exact hafter

theorem frame_isSome_marker (machine : Machine) (requestId : Id) :
    Frame fun delivery : Delivery Machine => (delivery.marker machine requestId).isSome = true where
  stable := stable_isSome_marker machine requestId
  listed _ _ _ _ hsome := hsome
  read _ _ _ _ hsome := hsome
  committed _ _ hsome := hsome

theorem frame_marked (machines : List Machine) (marked : List Id) :
    Frame (Marked machines marked) where
  stable delivery step hmarked requestId hrequest machine hmachine :=
    stable_isSome_marker machine requestId delivery step
      (hmarked requestId hrequest machine hmachine)
  listed _ _ _ _ hmarked := hmarked
  read _ _ _ _ hmarked := hmarked
  committed _ _ hmarked := hmarked

/-- No marker has been created. -/
def Unmarked (log : List (Event Machine)) : Prop :=
  ∀ machine requestId, .marked machine requestId ∉ log

theorem frame_unmarked : Frame fun delivery : Delivery Machine => Unmarked delivery.log := by
  apply frame_log
  intro log event hevent hunmarked machine requestId hmem
  rcases List.mem_append.mp hmem with hold | hnew
  · exact hunmarked machine requestId hold
  · exact hevent machine requestId (List.mem_singleton.mp hnew).symm

/-! ### What stays queued -/

/-- The queue's row of the future says that the call finished or failed. -/
def QueuedEnded (queue : FutureId → Option WaitingRow) (futureId : FutureId) : Prop :=
  ∃ stored ∈ queue futureId, stored.finishedAt.isSome ∨ stored.failed = true

theorem ended_tracesUpsert {stored : Option WaitingRow} {row : TraceRow}
    (hended : (∃ before ∈ stored, before.finishedAt.isSome ∨ before.failed = true) ∨
      row.finishedAt.isSome ∨ row.failed = true) :
    (tracesUpsert stored row).finishedAt.isSome ∨ (tracesUpsert stored row).failed = true := by
  by_cases hrow : row.finishedAt.isSome ∨ row.failed = true
  · rw [tracesUpsert_eq hrow]
    exact hrow
  · obtain ⟨before, hbefore, hfinal⟩ := hended.resolve_right hrow
    rw [Option.mem_def] at hbefore
    subst hbefore
    have hkept : ¬ Overwrites before row := by
      rintro (⟨hopen, hfailed⟩ | hwritten)
      · rcases hfinal with hsome | htrue
        · rw [hopen] at hsome
          cases hsome
        · rw [hfailed] at htrue
          cases htrue
      · exact hrow hwritten
    simp only [tracesUpsert, if_neg hkept]
    exact hfinal

theorem QueuedEnded.traceWriteRows {queue : FutureId → Option WaitingRow} {futureId : FutureId}
    (rows : List TraceRow)
    (hended : QueuedEnded queue futureId ∨
      ∃ row ∈ rows, row.futureId = futureId ∧ (row.finishedAt.isSome ∨ row.failed = true)) :
    QueuedEnded (traceWriteRows rows queue) futureId := by
  induction rows generalizing queue with
  | nil =>
      rcases hended with hqueue | ⟨row, hmem, -⟩
      · exact hqueue
      · cases hmem
  | cons row rows ih =>
      apply ih
      by_cases hid : row.futureId = futureId
      · subst hid
        rcases hended with ⟨stored, hstored, hended⟩ | ⟨other, hmem, hsame, hended⟩
        · left
          refine ⟨_, Function.update_self row.futureId _ queue, ?_⟩
          exact ended_tracesUpsert (Or.inl ⟨stored, hstored, hended⟩)
        · rcases List.mem_cons.mp hmem with rfl | hlater
          · left
            refine ⟨_, Function.update_self other.futureId _ queue, ?_⟩
            exact ended_tracesUpsert (Or.inr hended)
          · exact Or.inr ⟨other, hlater, hsame, hended⟩
      · rcases hended with ⟨stored, hstored, hended⟩ | ⟨other, hmem, hsame, hended⟩
        · left
          exact ⟨stored, (Function.update_of_ne (Ne.symm hid) _ queue).trans hstored, hended⟩
        · rcases List.mem_cons.mp hmem with rfl | hlater
          · exact absurd hsame hid
          · exact Or.inr ⟨other, hlater, hsame, hended⟩

/-- Every row committed that says its call finished or failed is still queued so. -/
def StaysQueued (delivery : Delivery Machine) : Prop :=
  ∀ rows, .committed rows ∈ delivery.log → ∀ row ∈ rows,
    row.finishedAt.isSome ∨ row.failed = true → QueuedEnded delivery.queue row.futureId

omit [DecidableEq Machine] in
theorem StaysQueued.of_queue_eq {delivery next : Delivery Machine} {event : Event Machine}
    (hstays : StaysQueued delivery) (hqueue : next.queue = delivery.queue)
    (hlog : next.log = delivery.log ++ [event]) (hevent : ∀ rows, event ≠ .committed rows) :
    StaysQueued next := by
  intro rows hmem row hrow hended
  rw [hlog] at hmem
  rw [hqueue]
  rcases List.mem_append.mp hmem with hold | hnew
  · exact hstays rows hold row hrow hended
  · exact absurd (List.mem_singleton.mp hnew).symm (hevent rows)

theorem frame_staysQueued : Frame fun delivery : Delivery Machine => StaysQueued delivery where
  stable delivery step hstays := by
    rcases log_advance delivery step with hsame | ⟨machine, requestId, time, hgrown, -⟩
    · intro rows hmem
      rw [hsame] at hmem
      rw [queue_advance]
      exact hstays rows hmem
    · exact hstays.of_queue_eq (queue_advance delivery step) hgrown (by simp)
  listed _ _ _ _ hstays := hstays.of_queue_eq rfl rfl (by simp)
  read _ _ _ _ hstays := hstays.of_queue_eq rfl rfl (by simp)
  committed delivery rows hstays := by
    intro rows' hmem row hrow hended
    rcases List.mem_append.mp hmem with hold | hnew
    · exact QueuedEnded.traceWriteRows rows (Or.inl (hstays rows' hold row hrow hended))
    · cases List.mem_singleton.mp hnew
      exact QueuedEnded.traceWriteRows rows (Or.inr ⟨row, hrow, rfl, hended⟩)

/-! ### The loops of a pass -/

variable (normalizeJsonText : String → String) (projectId : Option String)
variable {kept abort : Delivery Machine → Prop} {machines : List Machine}
  {written : List (Event Machine)} {pairs : Machine → Id → Prop} {expected : Id → List Id}

/-- These pairs of a machine and a request were asked for, and `expected` has all that was
listed. -/
structure Relisted (pairs : Machine → Id → Prop) (expected : Id → List Id)
    (reread : List (Event Machine)) : Prop where
  later : ∀ event ∈ reread, event.Later
  complete : ∀ machine requestId, pairs machine requestId →
    ∃ futures, .listed machine requestId futures ∈ reread
  covers : ∀ machine requestId futures, .listed machine requestId futures ∈ reread →
    ∀ futureId ∈ futures, futureId ∈ expected requestId

/-- `futures_of` has got so far since the log was `written`. -/
def Relisting (kept : Delivery Machine → Prop) (written : List (Event Machine))
    (pairs : Machine → Id → Prop) (expected : Id → List Id) (delivery : Delivery Machine) : Prop :=
  kept delivery ∧ ∃ reread, delivery.log = written ++ reread ∧ Relisted pairs expected reread

omit [DecidableEq Machine] in
theorem Relisting.mono {delivery : Delivery Machine} {fewer : Machine → Id → Prop}
    (hrelisting : Relisting kept written pairs expected delivery)
    (hfewer : ∀ machine requestId, fewer machine requestId → pairs machine requestId) :
    Relisting kept written fewer expected delivery := by
  obtain ⟨hkept, reread, hlog, hrelisted⟩ := hrelisting
  refine ⟨hkept, reread, hlog, hrelisted.later, ?_, hrelisted.covers⟩
  intro machine requestId hpair
  exact hrelisted.complete machine requestId (hfewer machine requestId hpair)

theorem stable_relisting (hframe : Frame kept) :
    Stable Delivery.advance (Relisting kept written pairs expected) := by
  intro delivery step hrelisting
  obtain ⟨hkept, reread, hlog, hrelisted⟩ := hrelisting
  refine ⟨hframe.stable delivery step hkept, ?_⟩
  rcases log_advance delivery step with hsame | ⟨machine, requestId, time, hgrown, -⟩
  · exact ⟨reread, by rw [hsame, hlog], hrelisted⟩
  · refine ⟨reread ++ [.expires machine requestId time], ?_, ?_, ?_, ?_⟩
    · rw [hgrown, hlog, List.append_assoc]
    · intro event hmem
      rcases List.mem_append.mp hmem with hold | hnew
      · exact hrelisted.later event hold
      · rw [List.mem_singleton.mp hnew]
        trivial
    · intro other otherId hpair
      obtain ⟨futures, hmem⟩ := hrelisted.complete other otherId hpair
      exact ⟨futures, List.mem_append_left _ hmem⟩
    · intro other otherId futures hmem
      rcases List.mem_append.mp hmem with hold | hnew
      · exact hrelisted.covers other otherId futures hold
      · cases List.mem_singleton.mp hnew

theorem smembers_spec (hframe : Frame kept) (habort : ∀ delivery, kept delivery → abort delivery)
    (machine : Machine) (requestId : Id) :
    Triple (Relisting kept written pairs expected) (smembers machine requestId)
      (fun futures => Relisting kept written
        (fun other otherId => pairs other otherId ∨ (other = machine ∧ otherId = requestId))
        (Function.update expected requestId (expected requestId ∪ futures))) abort := by
  apply Triple.command (stable_relisting hframe)
  · intro delivery hrelisting
    obtain ⟨hkept, reread, hlog, hrelisted⟩ := hrelisting
    refine ⟨hframe.listed delivery machine requestId _ hkept,
      reread ++ [.listed machine requestId (delivery.futures machine requestId)], ?_, ?_, ?_, ?_⟩
    · rw [Delivery.record, hlog, List.append_assoc]
    · intro event hmem
      rcases List.mem_append.mp hmem with hold | hnew
      · exact hrelisted.later event hold
      · rw [List.mem_singleton.mp hnew]
        trivial
    · rintro other otherId (hpair | ⟨rfl, rfl⟩)
      · obtain ⟨futures, hmem⟩ := hrelisted.complete other otherId hpair
        exact ⟨futures, List.mem_append_left _ hmem⟩
      · exact ⟨_, List.mem_append_right _ (List.mem_singleton_self _)⟩
    · intro other otherId futures hmem futureId hfuture
      have hcovered : futureId ∈ expected otherId ∨
          otherId = requestId ∧ futureId ∈ delivery.futures machine requestId := by
        rcases List.mem_append.mp hmem with hold | hnew
        · exact Or.inl (hrelisted.covers other otherId futures hold futureId hfuture)
        · cases List.mem_singleton.mp hnew
          exact Or.inr ⟨rfl, hfuture⟩
      by_cases hrequest : otherId = requestId
      · subst hrequest
        rw [Function.update_self, List.mem_union_iff]
        exact hcovered.imp id And.right
      · rw [Function.update_of_ne hrequest]
        exact hcovered.resolve_right fun hnew => hrequest hnew.1
  · intro delivery hrelisting
    exact habort delivery hrelisting.1

theorem futuresOf_spec (hframe : Frame kept) (habort : ∀ delivery, kept delivery → abort delivery)
    (machines : List Machine) (requests : List Id) (written : List (Event Machine)) :
    Triple (fun delivery => kept delivery ∧ delivery.log = written) (futuresOf machines requests)
      (fun expected => Relisting kept written
        (fun machine requestId => machine ∈ machines ∧ requestId ∈ requests) expected) abort := by
  unfold futuresOf
  refine Triple.weaken (Triple.bind (Triple.forIn (fun done => Relisting kept written
    fun machine requestId => machine ∈ done ∧ requestId ∈ requests) machines _ ?_)
    fun expected => Triple.pure expected fun _ hpost => hpost) ?_ fun _ _ hpost => hpost
  · intro done machine rest acc hsplit
    refine Triple.weaken (Triple.bind (Triple.forIn (fun asked => Relisting kept written
      fun other requestId => (other ∈ done ∧ requestId ∈ requests) ∨
        (other = machine ∧ requestId ∈ asked)) requests _ ?_)
      fun expected => Triple.pure (ForInStep.yield expected) ?_) ?_ fun _ _ hpost => hpost
    · intro asked requestId later acc hsplit
      refine Triple.bind (smembers_spec hframe habort machine requestId) fun futures => ?_
      apply Triple.pure
      intro delivery hrelisting
      refine ⟨_, rfl, hrelisting.mono ?_⟩
      rintro other otherId (hbefore | ⟨hmachine, hrequest⟩)
      · exact Or.inl (Or.inl hbefore)
      · rcases List.mem_append.mp hrequest with hasked | hnow
        · exact Or.inl (Or.inr ⟨hmachine, hasked⟩)
        · exact Or.inr ⟨hmachine, List.mem_singleton.mp hnow⟩
    · intro delivery hrelisting
      refine ⟨expected, rfl, hrelisting.mono ?_⟩
      rintro other requestId ⟨hmachine, hrequest⟩
      rcases List.mem_append.mp hmachine with hdone | hnow
      · exact Or.inl ⟨hdone, hrequest⟩
      · exact Or.inr ⟨List.mem_singleton.mp hnow, hrequest⟩
    · intro delivery hrelisting
      apply hrelisting.mono
      rintro other requestId (hbefore | ⟨-, hnone⟩)
      · exact hbefore
      · cases hnone
  · rintro delivery ⟨hkept, hlog⟩
    refine ⟨hkept, [], by rw [hlog, List.append_nil], ?_, ?_, ?_⟩
    · intro event hmem
      cases hmem
    · rintro machine requestId ⟨hnone, -⟩
      cases hnone
    · intro machine requestId futures hmem
      cases hmem

theorem markedEverywhere_spec (hframe : Frame kept)
    (habort : ∀ delivery, kept delivery → abort delivery) (requestId : Id)
    (machines : List Machine) :
    Triple kept (markedEverywhere requestId machines)
      (fun everywhere delivery => kept delivery ∧ (everywhere = true →
        ∀ machine ∈ machines, (delivery.marker machine requestId).isSome)) abort := by
  induction machines generalizing kept with
  | nil =>
      apply Triple.pure
      intro delivery hkept
      exact ⟨hkept, fun _ machine hmem => absurd hmem List.not_mem_nil⟩
  | cons machine machines ih =>
      have hget : Triple kept (getMarker machine requestId)
          (fun marked delivery => kept delivery ∧
            (marked = true → (delivery.marker machine requestId).isSome)) abort := by
        apply Triple.command hframe.stable
        · intro delivery hkept
          exact ⟨hkept, id⟩
        · exact habort
      apply Triple.bind hget
      intro marked
      cases marked with
      | false =>
          apply Triple.pure
          intro delivery hkept
          exact ⟨hkept.1, fun hfalse => Bool.noConfusion hfalse⟩
      | true =>
          have hrest := ih (hframe.and (frame_isSome_marker machine requestId))
            fun delivery hkept => habort delivery hkept.1
          refine hrest.weaken (fun delivery hkept => ⟨hkept.1, hkept.2 rfl⟩) ?_
          rintro everywhere delivery ⟨⟨hkept, hmarked⟩, hothers⟩
          refine ⟨hkept, fun htrue other hmem => ?_⟩
          rcases List.mem_cons.mp hmem with rfl | hlater
          · exact hmarked
          · exact hothers htrue other hlater

theorem markedRequests_spec (hframe : Frame kept)
    (habort : ∀ delivery, kept delivery → abort delivery) (machines : List Machine)
    (requestIds : List Id) :
    Triple kept (markedRequests machines requestIds)
      (fun marked delivery => kept delivery ∧ Marked machines marked delivery) abort := by
  unfold markedRequests
  refine Triple.weaken (Triple.bind (Triple.forIn (fun _ marked delivery =>
    kept delivery ∧ Marked machines marked delivery) requestIds _ ?_)
    fun marked => Triple.pure marked fun _ hpost => hpost) ?_ fun _ _ hpost => hpost
  · intro done requestId rest marked hsplit
    refine Triple.bind (markedEverywhere_spec (hframe.and (frame_marked machines marked))
      (fun delivery hkept => habort delivery hkept.1) requestId machines) fun everywhere => ?_
    apply Triple.pure
    rintro delivery ⟨⟨hkept, hmarked⟩, heverywhere⟩
    refine ⟨_, rfl, hkept, ?_⟩
    intro other hmem
    split_ifs at hmem with htrue
    · rcases List.mem_append.mp hmem with hbefore | hnow
      · exact hmarked other hbefore
      · rw [List.mem_singleton.mp hnow]
        exact heverywhere htrue
    · exact hmarked other hmem
  · intro delivery hkept
    exact ⟨hkept, fun other hmem => absurd hmem List.not_mem_nil⟩

theorem wantedFutures_spec (hframe : Frame kept)
    (habort : ∀ delivery, kept delivery → abort delivery) (machines : List Machine)
    (pending : List Id) :
    Triple kept (wantedFutures machines pending) (fun _ => kept) abort := by
  unfold wantedFutures
  split_ifs
  · exact Triple.pure _ fun _ hkept => hkept
  · have hasked : Triple kept (futuresOf machines pending) (fun _ => kept) abort := by
      have hwritten := Triple.exists_pre fun written =>
        (futuresOf_spec hframe habort machines pending written).weaken (fun _ hpre => hpre)
          fun _ _ hpost => hpost.1
      exact hwritten.weaken (fun delivery hkept => ⟨delivery.log, hkept, rfl⟩)
        fun _ _ hpost => hpost
    exact Triple.bind hasked fun expected => Triple.pure _ fun _ hkept => hkept

omit [DecidableEq Machine] in
theorem Queued.append {normalizeJsonText : String → String} {projectId : Option String}
    {log : List (Event Machine)} {requestId futureId : Id}
    (hqueued : Queued normalizeJsonText projectId log requestId futureId)
    (more : List (Event Machine)) :
    Queued normalizeJsonText projectId (log ++ more) requestId futureId := by
  obtain ⟨before, after, rows, hlog, hread⟩ := hqueued
  refine ⟨before, after ++ more, rows, ?_, hread⟩
  rw [hlog, List.append_assoc, List.cons_append]

/-- These rows were read from the machine. -/
def HaveRead (machine : Machine) (rows : List (Id × Record)) (log : List (Event Machine)) : Prop :=
  ∀ row ∈ rows, .read machine row.1 row.2 ∈ log

theorem frame_haveRead (machine : Machine) (rows : List (Id × Record)) :
    Frame fun delivery : Delivery Machine => HaveRead machine rows delivery.log := by
  apply frame_log
  intro log event _ hread row hrow
  exact List.mem_append_left _ (hread row hrow)

/-- The terminal futures collected so far are queued. -/
def QueuedAll (terminal : Id → List FutureId) (log : List (Event Machine)) : Prop :=
  ∀ requestId futureId : Id, futureId.val ∈ terminal requestId →
    Queued normalizeJsonText projectId log requestId futureId

theorem frame_queuedAll (terminal : Id → List FutureId) :
    Frame fun delivery : Delivery Machine =>
      QueuedAll normalizeJsonText projectId terminal delivery.log := by
  apply frame_log
  intro log event _ hterminal requestId futureId hmem
  exact (hterminal requestId futureId hmem).append [event]

theorem readFutures_spec (hframe : Frame kept)
    (habort : ∀ delivery, kept delivery → abort delivery) (machine : Machine)
    (futureIds : List Id) :
    Triple kept (readFutures machine futureIds)
      (fun rows delivery => kept delivery ∧ HaveRead machine rows delivery.log) abort := by
  unfold readFutures
  refine Triple.weaken (Triple.bind (Triple.forIn (fun _ rows delivery =>
    kept delivery ∧ HaveRead machine rows delivery.log) futureIds _ ?_)
    fun rows => Triple.pure rows fun _ hpost => hpost) ?_ fun _ _ hpost => hpost
  · intro done futureId rest rows hsplit
    have hget : Triple (fun delivery => kept delivery ∧ HaveRead machine rows delivery.log)
        (hgetall machine futureId)
        (fun record delivery => (kept delivery ∧ HaveRead machine rows delivery.log) ∧
          .read machine futureId record ∈ delivery.log) abort := by
      have hboth := hframe.and (frame_haveRead machine rows)
      apply Triple.command hboth.stable
      · intro delivery hkept
        refine ⟨hboth.read delivery machine futureId _ hkept, ?_⟩
        exact List.mem_append_right _ (List.mem_singleton_self _)
      · intro delivery hkept
        exact habort delivery hkept.1
    refine Triple.bind hget fun record => ?_
    apply Triple.pure
    rintro delivery ⟨⟨hkept, hrows⟩, hread⟩
    refine ⟨_, rfl, hkept, ?_⟩
    intro row hrow
    split_ifs at hrow
    · exact hrows row hrow
    · rcases List.mem_append.mp hrow with hbefore | hnow
      · exact hrows row hbefore
      · rw [List.mem_singleton.mp hnow]
        exact hread
  · intro delivery hkept
    exact ⟨hkept, fun row hrow => absurd hrow List.not_mem_nil⟩

/-- A finished record of a request's future gives a row. -/
theorem traceRow_of_named {key requestId futureId : Id} {record : Record}
    (hrequest : record.requestId = some requestId.val) (hfuture : rowId key.val record = futureId.val) :
    ∃ row, traceRow normalizeJsonText projectId key.val record = some row ∧
      row.sessionId = requestId.val ∧ row.futureId = futureId.val := by
  refine ⟨rowOf normalizeJsonText projectId key.val record, ?_, ?_, hfuture⟩
  · unfold traceRow
    apply if_neg
    rintro (hempty | hempty)
    · exact futureId.property (hfuture.symm.trans hempty)
    · simp only [rowOf, hrequest, Option.getD_some] at hempty
      exact requestId.property hempty
  · simp only [rowOf, hrequest, Option.getD_some]

theorem queueRows_spec (hframe : Frame kept)
    (habort : ∀ delivery, kept delivery → abort delivery) (machine : Machine) (pending : List Id)
    (rows : List (Id × Record)) :
    Triple (fun delivery => kept delivery ∧ HaveRead machine rows delivery.log)
      (queueRows normalizeJsonText projectId rows)
      (fun _ delivery => kept delivery ∧ QueuedAll normalizeJsonText projectId
        (finishedIn pending rows) delivery.log) abort := by
  unfold queueRows
  split_ifs with hrows
  · subst hrows
    apply Triple.pure
    intro delivery hkept
    exact ⟨hkept.1, fun requestId futureId hmem => absurd hmem List.not_mem_nil⟩
  · apply Triple.command (hframe.and (frame_haveRead machine rows)).stable
    · rintro delivery ⟨hkept, hread⟩
      refine ⟨hframe.committed delivery _ hkept, ?_⟩
      intro requestId futureId hmem
      obtain ⟨⟨key, record⟩, hrow, hfuture⟩ := List.mem_map.mp hmem
      obtain ⟨hrow, hselected⟩ := List.mem_filter.mp hrow
      obtain ⟨hrequest, -, hfinished⟩ := of_decide_eq_true hselected
      obtain ⟨row, htrace, hsession, hid⟩ :=
        traceRow_of_named normalizeJsonText projectId hrequest hfuture
      refine ⟨delivery.log, [], _, rfl, machine, key, record, row, hread _ hrow, hfinished, htrace,
        ?_, hsession, hid⟩
      exact List.mem_filterMap.mpr ⟨(key, record), hrow, htrace⟩
    · intro delivery hkept
      exact habort delivery hkept.1

theorem queueFutures_spec (hframe : Frame kept)
    (habort : ∀ delivery, kept delivery → abort delivery) (machines : List Machine)
    (pending wanted : List Id) :
    Triple kept (queueFutures normalizeJsonText projectId machines pending wanted)
      (fun terminal delivery => kept delivery ∧
        QueuedAll normalizeJsonText projectId terminal delivery.log) abort := by
  unfold queueFutures
  refine Triple.weaken (Triple.bind (Triple.forIn (fun _ terminal delivery => kept delivery ∧
    QueuedAll normalizeJsonText projectId terminal delivery.log) machines _ ?_)
    fun terminal => Triple.pure terminal fun _ hpost => hpost) ?_ fun _ _ hpost => hpost
  · intro done machine rest terminal hsplit
    have hboth := hframe.and (frame_queuedAll normalizeJsonText projectId terminal)
    have hsafe := fun delivery (hkept : kept delivery ∧
      QueuedAll normalizeJsonText projectId terminal delivery.log) => habort delivery hkept.1
    refine Triple.bind (readFutures_spec hboth hsafe machine wanted) fun rows => ?_
    refine Triple.bind (queueRows_spec normalizeJsonText projectId hboth hsafe machine pending
      rows) fun _ => ?_
    apply Triple.pure
    rintro delivery ⟨⟨hkept, hbefore⟩, hnow⟩
    refine ⟨_, rfl, hkept, ?_⟩
    intro requestId futureId hmem
    rcases List.mem_append.mp hmem with hold | hnew
    · exact hbefore requestId futureId hold
    · exact hnow requestId futureId hnew
  · intro delivery hkept
    exact ⟨hkept, fun requestId futureId hmem => absurd hmem List.not_mem_nil⟩

/-! ### Marking -/

omit [DecidableEq Machine] in
theorem Reread.concat {log : List (Event Machine)} {requestId : Id}
    {settled : List (Event Machine) → Id → Prop} {event : Event Machine}
    (hreread : Reread machines log requestId settled) (hlater : event.Later)
    (hlisted : ∀ machine futures, event ≠ .listed machine requestId futures) :
    Reread machines (log ++ [event]) requestId settled := by
  obtain ⟨written, reread, hlog, hothers, hcomplete, hsettled⟩ := hreread
  refine ⟨written, reread ++ [event], ?_, ?_, ?_, ?_⟩
  · rw [hlog, List.append_assoc]
  · intro other hmem
    rcases List.mem_append.mp hmem with hold | hnew
    · exact hothers other hold
    · rw [List.mem_singleton.mp hnew]
      exact hlater
  · intro machine hmachine
    obtain ⟨futures, hmem⟩ := hcomplete machine hmachine
    exact ⟨futures, List.mem_append_left _ hmem⟩
  · intro machine futures hmem
    rcases List.mem_append.mp hmem with hold | hnew
    · exact hsettled machine futures hold
    · exact absurd (List.mem_singleton.mp hnew).symm (hlisted machine futures)

omit [DecidableEq Machine] in
/-- A marker in a longer log was in the log before, or is the last entry. -/
theorem MarksSound.concat {normalizeJsonText : String → String} {projectId : Option String}
    {log : List (Event Machine)} {event : Event Machine}
    (hsound : MarksSound normalizeJsonText projectId machines log)
    (hevent : ∀ machine requestId, event = .marked machine requestId →
      Reread machines log requestId fun written futureId =>
        Queued normalizeJsonText projectId written requestId futureId) :
    MarksSound normalizeJsonText projectId machines (log ++ [event]) := by
  intro before after machine requestId hsplit
  rcases List.eq_nil_or_concat after with rfl | ⟨earlier, last, rfl⟩
  · obtain ⟨rfl, hlast⟩ := List.append_inj' hsplit rfl
    exact hevent machine requestId (List.singleton_injective hlast)
  · rw [List.concat_eq_append, ← List.cons_append, ← List.append_assoc] at hsplit
    obtain ⟨hlog, -⟩ := List.append_inj' hsplit rfl
    exact hsound before earlier machine requestId hlog

/-- What is known once a pass has decided which requests are delivered and which are gone. -/
structure Ready (initial : Stores Machine) (machines : List Machine)
    (marked delivered gone : List Id) (delivery : Delivery Machine) : Prop where
  kept : MarkersKept initial delivery
  stays : StaysQueued delivery
  markers : Marked machines marked delivery
  sound : MarksSound normalizeJsonText projectId machines delivery.log
  queued : ∀ requestId ∈ delivered, requestId ∉ marked →
    Reread machines delivery.log requestId fun written futureId =>
      Queued normalizeJsonText projectId written requestId futureId
  empty : ∀ requestId ∈ gone, Reread machines delivery.log requestId fun _ _ => False

/-- What holds of a pass wherever it ends. -/
structure PassSound (initial : Stores Machine) (machines : List Machine)
    (delivery : Delivery Machine) : Prop where
  marks : MarksSound normalizeJsonText projectId machines delivery.log
  kept : MarkersKept initial delivery
  stays : StaysQueued delivery

variable {normalizeJsonText projectId} {initial : Stores Machine} {marked delivered gone : List Id}

omit [DecidableEq Machine] in
theorem Ready.passSound {delivery : Delivery Machine}
    (hready : Ready normalizeJsonText projectId initial machines marked delivered gone delivery) :
    PassSound normalizeJsonText projectId initial machines delivery :=
  ⟨hready.sound, hready.kept, hready.stays⟩

theorem stable_ready :
    Stable Delivery.advance
      (Ready normalizeJsonText projectId initial machines marked delivered gone) := by
  intro delivery step hready
  have hkept := stable_markersKept initial delivery step hready.kept
  have hstays := frame_staysQueued.stable delivery step hready.stays
  have hmarked := (frame_marked machines marked).stable delivery step hready.markers
  rcases log_advance delivery step with hsame | ⟨machine, requestId, time, hgrown, -⟩
  · refine ⟨hkept, hstays, hmarked, ?_, ?_, ?_⟩
    · rw [hsame]
      exact hready.sound
    · rw [hsame]
      exact hready.queued
    · rw [hsame]
      exact hready.empty
  · refine ⟨hkept, hstays, hmarked, ?_, ?_, ?_⟩
    · rw [hgrown]
      exact hready.sound.concat (by simp)
    · intro other hother hunmarked
      rw [hgrown]
      exact (hready.queued other hother hunmarked).concat trivial (by simp)
    · intro other hother
      rw [hgrown]
      exact (hready.empty other hother).concat trivial (by simp)

/-- A marker that was missing is created: the markers there were stay as they are. -/
theorem MarkersKept.setMarker {delivery : Delivery Machine} {machine : Machine} {requestId : Id}
    (hkept : MarkersKept initial delivery) (hnone : delivery.marker machine requestId = none) :
    MarkersKept initial
      ((delivery.setMarker machine requestId none).record (.marked machine requestId)) := by
  have hother : ∀ other otherId, (delivery.marker other otherId).isSome →
      ((delivery.setMarker machine requestId none).record (.marked machine requestId)).marker other
        otherId = delivery.marker other otherId := by
    intro other otherId hsome
    by_cases hmachine : other = machine
    · subst hmachine
      have hrequest : otherId ≠ requestId := by
        rintro rfl
        rw [hnone] at hsome
        cases hsome
      simp [Delivery.setMarker, Delivery.record, hrequest]
    · simp [Delivery.setMarker, Delivery.record, hmachine]
  constructor
  · intro other otherId hinitial
    rw [hother other otherId (hkept.marker other otherId hinitial)]
    exact hkept.marker other otherId hinitial
  · intro other otherId time hinitial
    have hexpiry := hkept.expiry other otherId time hinitial
    rw [hother other otherId (by rw [hexpiry]; rfl), hexpiry]
  · intro other otherId time hmem
    rcases List.mem_append.mp hmem with hold | hnew
    · have hexpiry := hkept.expires other otherId time hold
      rw [hother other otherId (by rw [hexpiry]; rfl), hexpiry]
    · cases List.mem_singleton.mp hnew
  · intro other otherId hsome
    by_cases hbefore : (delivery.marker other otherId).isSome
    · exact (hkept.created other otherId hbefore).imp id (List.mem_append_left _)
    · right
      by_cases hmachine : other = machine
      · by_cases hrequest : otherId = requestId
        · rw [hmachine, hrequest]
          exact List.mem_append_right _ (List.mem_singleton_self _)
        · subst hmachine
          refine absurd ?_ hbefore
          simpa [Delivery.setMarker, Delivery.record, hrequest] using hsome
      · refine absurd ?_ hbefore
        simpa [Delivery.setMarker, Delivery.record, hmachine] using hsome

theorem markDelivered_spec {machine : Machine} (hmachine : machine ∈ machines) {requestId : Id}
    (hrequest : requestId ∈ delivered) :
    Triple (Ready normalizeJsonText projectId initial machines marked delivered gone)
      (markDelivered machine requestId)
      (fun _ => Ready normalizeJsonText projectId initial machines marked delivered gone)
      (PassSound normalizeJsonText projectId initial machines) := by
  apply Triple.command stable_ready
  · intro delivery hready
    cases hmarker : delivery.marker machine requestId with
    | some expiry => exact hready
    | none =>
        have hunmarked : requestId ∉ marked := by
          intro hmem
          have hsome := hready.markers requestId hmem machine hmachine
          rw [hmarker] at hsome
          cases hsome
        constructor
        · exact hready.kept.setMarker hmarker
        · exact hready.stays.of_queue_eq rfl rfl (by simp)
        · intro other hother otherMachine hotherMachine
          by_cases hsame : otherMachine = machine
          · subst hsame
            by_cases hid : other = requestId
            · exact absurd (hid ▸ hother) hunmarked
            · simpa [Delivery.setMarker, Delivery.record, hid] using
                hready.markers other hother otherMachine hotherMachine
          · simpa [Delivery.setMarker, Delivery.record, hsame] using
              hready.markers other hother otherMachine hotherMachine
        · apply hready.sound.concat
          intro _ _ hevent
          cases hevent
          exact hready.queued requestId hrequest hunmarked
        · intro other hother hnot
          exact (hready.queued other hother hnot).concat trivial (by simp)
        · intro other hother
          exact (hready.empty other hother).concat trivial (by simp)
  · intro delivery hready
    exact hready.passSound

theorem markAll_spec :
    Triple (Ready normalizeJsonText projectId initial machines marked delivered gone)
      (markAll machines delivered)
      (fun _ => Ready normalizeJsonText projectId initial machines marked delivered gone)
      (PassSound normalizeJsonText projectId initial machines) := by
  have hinner : ∀ machine ∈ machines,
      Triple (Ready normalizeJsonText projectId initial machines marked delivered gone)
        (forIn delivered PUnit.unit fun requestId _ => do
          markDelivered machine requestId
          pure (ForInStep.yield PUnit.unit))
        (fun _ => Ready normalizeJsonText projectId initial machines marked delivered gone)
        (PassSound normalizeJsonText projectId initial machines) := by
    intro machine hmachine
    refine Triple.forIn (fun _ _ =>
      Ready normalizeJsonText projectId initial machines marked delivered gone) delivered _ ?_
    intro done requestId rest _ hsplit
    have hrequest : requestId ∈ delivered := by
      rw [hsplit]
      exact List.mem_append_right _ List.mem_cons_self
    refine Triple.bind (markDelivered_spec hmachine hrequest) fun _ => ?_
    apply Triple.pure
    intro delivery hready
    exact ⟨_, rfl, hready⟩
  unfold markAll
  refine Triple.bind (Triple.forIn (fun _ _ =>
    Ready normalizeJsonText projectId initial machines marked delivered gone) machines _ ?_)
    fun _ => Triple.pure _ fun _ hready => hready
  intro done machine rest _ hsplit
  have hmachine : machine ∈ machines := by
    rw [hsplit]
    exact List.mem_append_right _ List.mem_cons_self
  refine Triple.bind (hinner machine hmachine) fun _ => ?_
  apply Triple.pure
  intro delivery hready
  exact ⟨_, rfl, hready⟩

omit [DecidableEq Machine] in
/-- What was listed again decides: every future of a delivered request is queued, and a request gone
has none. -/
theorem ready_of_relisting {terminal : Id → List FutureId} {requestIds : List Id}
    {delivery : Delivery Machine}
    (hterminal : QueuedAll normalizeJsonText projectId terminal written)
    (hrelisting : Relisting (fun delivery => ((MarkersKept initial delivery ∧
      StaysQueued delivery) ∧ Unmarked delivery.log) ∧ Marked machines marked delivery) written
      (fun machine requestId => machine ∈ machines ∧ requestId ∈ requestIds) expected delivery)
    (hsound : MarksSound normalizeJsonText projectId machines delivery.log)
    (hdelivered : ∀ requestId ∈ delivered, requestId ∈ requestIds ∧ (requestId ∈ marked ∨
      ∀ futureId ∈ expected requestId, futureId.val ∈ terminal requestId))
    (hgone : ∀ requestId ∈ gone, requestId ∈ requestIds ∧ expected requestId = []) :
    Ready normalizeJsonText projectId initial machines marked delivered gone delivery := by
  obtain ⟨⟨⟨⟨hkept, hstays⟩, -⟩, hmarked⟩, reread, hlog, hrelisted⟩ := hrelisting
  have hreread : ∀ requestId ∈ requestIds, ∀ settled : List (Event Machine) → Id → Prop,
      (∀ futureId ∈ expected requestId, settled written futureId) →
        Reread machines delivery.log requestId settled := by
    intro requestId hrequest settled hsettled
    refine ⟨written, reread, hlog, hrelisted.later, ?_, ?_⟩
    · intro machine hmachine
      exact hrelisted.complete machine requestId ⟨hmachine, hrequest⟩
    · intro machine futures hmem futureId hfuture
      exact hsettled futureId (hrelisted.covers machine requestId futures hmem futureId hfuture)
  refine ⟨hkept, hstays, hmarked, hsound, ?_, ?_⟩
  · intro requestId hmem hunmarked
    obtain ⟨hrequest, hended⟩ := hdelivered requestId hmem
    apply hreread requestId hrequest
    intro futureId hfuture
    exact hterminal requestId futureId (hended.resolve_left hunmarked futureId hfuture)
  · intro requestId hmem
    obtain ⟨hrequest, hnone⟩ := hgone requestId hmem
    apply hreread requestId hrequest
    intro futureId hfuture
    rw [hnone] at hfuture
    cases hfuture

variable (normalizeJsonText projectId) in
theorem deliverCompletedRequests_spec (initial : Stores Machine) (machines : List Machine)
    (requestIds : List Id) :
    Triple
      (fun delivery => (MarkersKept initial delivery ∧ StaysQueued delivery) ∧
        Unmarked delivery.log)
      (deliverCompletedRequests normalizeJsonText projectId machines requestIds)
      (fun answer delivery => PassSound normalizeJsonText projectId initial machines delivery ∧
        (∀ requestId ∈ answer.2, Reread machines delivery.log requestId fun _ _ => False) ∧
        ∀ requestId ∈ answer.1, requestId ∉ answer.2)
      (PassSound normalizeJsonText projectId initial machines) := by
  have hframe := ((frame_markersKept initial).and frame_staysQueued).and frame_unmarked
  have hsafe : ∀ delivery : Delivery Machine,
      (MarkersKept initial delivery ∧ StaysQueued delivery) ∧ Unmarked delivery.log →
        PassSound normalizeJsonText projectId initial machines delivery := by
    rintro delivery ⟨⟨hkept, hstays⟩, hunmarked⟩
    refine ⟨?_, hkept, hstays⟩
    intro before after machine requestId hlog
    refine absurd ?_ (hunmarked machine requestId)
    rw [hlog]
    exact List.mem_append_right _ List.mem_cons_self
  unfold deliverCompletedRequests
  dsimp only
  split_ifs
  · apply Triple.pure
    intro delivery hkept
    exact ⟨hsafe delivery hkept, fun _ hmem => absurd hmem List.not_mem_nil,
      fun _ hmem => absurd hmem List.not_mem_nil⟩
  · refine Triple.bind (markedRequests_spec hframe hsafe machines _) fun marked => ?_
    have hmarked := hframe.and (frame_marked machines marked)
    refine Triple.bind (wantedFutures_spec hmarked (fun delivery hkept => hsafe delivery hkept.1)
      machines _) fun wanted => ?_
    refine Triple.bind (queueFutures_spec normalizeJsonText projectId hmarked
      (fun delivery hkept => hsafe delivery hkept.1) machines _ wanted) fun terminal => ?_
    refine Triple.weaken (Triple.exists_pre
      fun written : {log // QueuedAll normalizeJsonText projectId terminal log} =>
        Triple.bind (futuresOf_spec hmarked (fun delivery hkept => hsafe delivery hkept.1) machines
          requestIds.dedup written.val) fun expected => ?_)
      (fun delivery hkept => ⟨⟨delivery.log, hkept.2⟩, hkept.1, rfl⟩) fun _ _ hpost => hpost
    generalize hgone : requestIds.dedup.filter (fun requestId => expected requestId = []) = gone
    generalize hdelivered : requestIds.dedup.filter (fun requestId => requestId ∉ gone ∧
      (requestId ∈ marked ∨ ∀ futureId ∈ expected requestId,
        futureId.val ∈ terminal requestId)) = delivered
    refine Triple.weaken (Triple.bind markAll_spec fun _ => Triple.pure _ fun delivery
        (hready : Ready normalizeJsonText projectId initial machines marked delivered gone
          delivery) => ?_)
      (fun delivery hrelisting => ready_of_relisting written.property hrelisting
        (hsafe delivery hrelisting.1.1).marks ?_ ?_) fun _ _ hpost => hpost
    · refine ⟨hready.passSound, hready.empty, ?_⟩
      intro requestId hmem
      rw [← hdelivered] at hmem
      exact (of_decide_eq_true (List.mem_filter.mp hmem).2).1
    · intro requestId hmem
      rw [← hdelivered] at hmem
      obtain ⟨hrequest, hended⟩ := List.mem_filter.mp hmem
      exact ⟨hrequest, (of_decide_eq_true hended).2⟩
    · intro requestId hmem
      rw [← hgone] at hmem
      obtain ⟨hrequest, hnone⟩ := List.mem_filter.mp hmem
      exact ⟨hrequest, of_decide_eq_true hnone⟩

/-- Delivered means queued: wherever a pass ends and whatever calls do meanwhile, it created markers
only for requests whose futures, listed again after the last write, were all queued; a request it
reports gone had none left on any machine. -/
theorem delivered_means_queued (normalizeJsonText : String → String) (projectId : Option String)
    (initial : Stores Machine) (queue : FutureId → Option WaitingRow) (machines : List Machine)
    (requestIds : List Id) (turns : List (Turn (CallStep Machine))) :
    match deliverCompletedRequests normalizeJsonText projectId machines requestIds
        ⟨{ initial with queue := queue }, turns⟩ with
    | .ok (delivered, gone) final =>
        PassSound normalizeJsonText projectId initial machines final.state ∧
          (∀ requestId ∈ gone, Reread machines final.state.log requestId fun _ _ => False) ∧
          ∀ requestId ∈ delivered, requestId ∉ gone
    | .error _ final => PassSound normalizeJsonText projectId initial machines final.state := by
  have hstart : (MarkersKept initial { initial with queue := queue } ∧
      StaysQueued { initial with queue := queue }) ∧ Unmarked ([] : List (Event Machine)) := by
    refine ⟨⟨⟨?_, ?_, ?_, ?_⟩, ?_⟩, ?_⟩
    · exact fun _ _ hsome => hsome
    · exact fun _ _ _ hexpiry => hexpiry
    · exact fun _ _ _ hmem => absurd hmem List.not_mem_nil
    · exact fun _ _ hsome => Or.inl hsome
    · exact fun _ hmem => absurd hmem List.not_mem_nil
    · exact fun _ _ => List.not_mem_nil
  have hpass := deliverCompletedRequests_spec normalizeJsonText projectId initial machines
    requestIds ⟨{ initial with queue := queue }, turns⟩ hstart
  cases hrun : deliverCompletedRequests normalizeJsonText projectId machines requestIds
      ⟨{ initial with queue := queue }, turns⟩ with
  | ok answer final =>
      obtain ⟨delivered, gone⟩ := answer
      rw [hrun] at hpass
      exact hpass
  | error _ final =>
      rw [hrun] at hpass
      exact hpass

/-- One machine that lists the finished call `f` of request `r`. -/
def finishedStores : Stores Unit where
  futures _ _ := [⟨"f", by decide⟩]
  future _ _ := { requestId := some "r", result := some "42", finishedAt := some 5 }
  marker _ _ := none

/-- What a pass over `r` reports, given what calls do before each of its commands. -/
def passAnswer (turns : List (Turn (CallStep Unit))) : Option (List Id × List Id) :=
  match deliverCompletedRequests id none [()] [⟨"r", by decide⟩]
      ⟨{ finishedStores with queue := fun _ => none }, turns⟩ with
  | .ok answer _ => some answer
  | .error _ _ => none

example : passAnswer [] = some ([⟨"r", by decide⟩], []) := by decide

/-- A call added after the others were read holds the request back. -/
example :
    passAnswer [{}, {}, {}, {}, { steps := [.addFuture () ⟨"r", by decide⟩ ⟨"g", by decide⟩] }] =
      some ([], []) := by
  decide

end CanyonOS.Telemetry
