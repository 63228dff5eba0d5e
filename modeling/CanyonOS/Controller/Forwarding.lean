import CanyonOS.Controller.Pinned

/-!
# Forwarding a call

Any number of controllers on any number of machines, and the network that carries `Execute` between
them. A message may be lost, arrive late, or arrive and lose its reply; an attempt that gets no
answer is sent again, to the same replica or to another.
-/

namespace CanyonOS

namespace Process

variable {me : Address} {config : Config} {process next : Process} {action : Action}
  {futureId : FutureId}

/-- The messages a step puts on the network. -/
def forwards (me : Address) (process : Process) : Action → List Request
  | .loop (.process (.forwarded address)) =>
      match process.replica.calls.hand with
      | some (request, .taken) => [Calls.forwardedRequest me address request]
      | _ => []
  | _ => []

/-- The calls whose method begins in a step. -/
def begins (me : Address) : Action → List (Address × FutureId)
  | .worker (.work call .started .serve) => [(me, call.futureId)]
  | _ => []

def Action.isExecute : Action → Bool
  | .server (.execute _ _ _) => true
  | _ => false

def Action.succeeded : Action → List Request
  | .forward (.onForwarded request .ok _) => [request]
  | _ => []

end Process

/-- What does not change while calls are forwarded: the replicas, the machine and the settings of
each, and the controller whose agent code makes each call. -/
structure Deployment where
  replicas : List Address
  machine : Address → String
  config : Address → Config
  home : FutureId → Address

structure Cluster where
  redis : String → Redis := fun _ => {}
  replica : Address → Replica := fun _ => {}
  /-- `Execute` messages on their way -/
  wire : List Request := []
  /-- messages their target answered as queued -/
  acknowledged : List Request := []
  /-- every method begun so far -/
  executed : List (Address × FutureId) := []

inductive ClusterAction where
  /-- a stub's own `Execute`, which it repeats until it is answered -/
  | submit (call : Request) (refusal : Option (String × String)) (now : Time)
  | deliver (request : Request) (now : Time)
  | lose (request : Request)
  | own (me : Address) (action : Process.Action)

namespace Cluster

variable (deployment : Deployment)

def process (cluster : Cluster) (me : Address) : Process :=
  { redis := cluster.redis (deployment.machine me), replica := cluster.replica me }

/-- One step of one controller. -/
def act (cluster : Cluster) (me : Address) (action : Process.Action) : Option Cluster :=
  if me ∈ deployment.replicas then
    ((cluster.process deployment me).step me (deployment.config me) action).map fun next =>
      { cluster with
        redis := Function.update cluster.redis (deployment.machine me) next.redis
        replica := Function.update cluster.replica me next.replica
        wire := (cluster.process deployment me).forwards me action ++ cluster.wire
        executed := Process.begins me action ++ cluster.executed }
  else none

/-- `Execute` runs only where a message or a stub brings it, and an attempt succeeds only if its
target answered. Any attempt may fail at any time, delivered or not. -/
def Unprompted (cluster : Cluster) (action : Process.Action) : Prop :=
  action.isExecute = false ∧ ∀ request ∈ action.succeeded, request ∈ cluster.acknowledged

instance (cluster : Cluster) (action : Process.Action) : Decidable (cluster.Unprompted action) :=
  inferInstanceAs (Decidable (_ ∧ _))

def step (cluster : Cluster) : ClusterAction → Option Cluster
  | .submit call refusal now =>
      if call.routeTo = none ∧ call.origin = none then
        cluster.act deployment (deployment.home call.futureId)
          (.server (.execute call refusal now))
      else none
  | .deliver request now =>
      match request.routeTo with
      | some target =>
          if request ∈ cluster.wire then
            (cluster.act deployment target (.server (.execute request none now))).map fun next =>
              { next with
                wire := next.wire.erase request
                acknowledged :=
                  if (cluster.replica target).refusing then next.acknowledged
                  else request :: next.acknowledged }
          else none
      | none => none
  | .lose request =>
      if request ∈ cluster.wire then some { cluster with wire := cluster.wire.erase request }
      else none
  | .own me action =>
      if cluster.Unprompted action then cluster.act deployment me action else none

def system : TransitionSystem Cluster ClusterAction where
  step := step deployment

/-! ### When no second replica can have the call -/

/-- Apart from the controller that made the call, no replica but `target` has taken it, and no
attempt to another is on its way. -/
def ClearFor (cluster : Cluster) (me target : Address) (futureId : FutureId) : Prop :=
  (∀ other ∈ deployment.replicas, other ≠ me → other ≠ target →
    (other, futureId) ∉ (cluster.redis (deployment.machine other)).accepted) ∧
  ∀ request ∈ cluster.wire, request.futureId = futureId → request.routeTo = some target

instance (cluster : Cluster) (me target : Address) (futureId : FutureId) :
    Decidable (cluster.ClearFor deployment me target futureId) :=
  inferInstanceAs (Decidable (_ ∧ _))

/-- The request in `run`'s hands, still to be routed. -/
def routed (cluster : Cluster) (me : Address) : Option Request :=
  match (cluster.replica me).calls.hand with
  | some (request, .taken) => some request
  | _ => none

/-- Where a step of `me` sends the request it has in hand. -/
def destination (me : Address) : Process.Action → Option Address
  | .loop (.process (.forwarded address)) => some address
  | .loop (.process .local) => some me
  | _ => none

/-- A call goes to a replica, or is kept by the controller it was made at, only when it is clear
for it. -/
def SendsOnce (cluster : Cluster) : ClusterAction → Prop
  | .own me action =>
      ∀ target ∈ destination me action, ∀ request ∈ cluster.routed me,
        deployment.home request.futureId = me →
          cluster.ClearFor deployment me target request.futureId
  | _ => True

instance (cluster : Cluster) : DecidablePred (cluster.SendsOnce deployment) := fun action =>
  match action with
  | .own me action =>
      inferInstanceAs (Decidable (∀ target ∈ destination me action, ∀ request ∈ cluster.routed me,
        deployment.home request.futureId = me →
          cluster.ClearFor deployment me target request.futureId))
  | .submit _ _ _ | .deliver _ _ | .lose _ => isTrue trivial

/-- A replica the call was sent to: it has taken the call, or may still. -/
def Claimed (cluster : Cluster) (futureId : FutureId) (target : Address) : Prop :=
  target ≠ deployment.home futureId ∧
    ((target, futureId) ∈ (cluster.redis (deployment.machine target)).accepted ∨
      ∃ request ∈ cluster.wire, request.futureId = futureId ∧ request.routeTo = some target)

structure Inv (cluster : Cluster) : Prop where
  member : ∀ me futureId,
    (me, futureId) ∈ (cluster.redis (deployment.machine me)).accepted → me ∈ deployment.replicas
  copies : ∀ me futureId,
    (cluster.replica me).calls.copies Stage.Unserved futureId + cluster.executed.count (me, futureId) ≤
      if (me, futureId) ∈ (cluster.redis (deployment.machine me)).accepted then 1 else 0
  pinned : ∀ me futureId, me ≠ deployment.home futureId →
    (cluster.replica me).calls.PinnedTo me futureId
  once : ∀ futureId first second, cluster.Claimed deployment futureId first →
    cluster.Claimed deployment futureId second → first = second
  kept : ∀ futureId target,
    0 < (cluster.replica (deployment.home futureId)).calls.submitted Stage.Unserved futureId +
      cluster.executed.count (deployment.home futureId, futureId) →
    ¬ cluster.Claimed deployment futureId target

/-! ### One step of one controller -/

variable {deployment} {cluster next : Cluster} {me : Address} {action : Process.Action}
  {futureId : FutureId}

/-- One controller takes a step and the rest of the cluster stays as it is. -/
structure Acts (deployment : Deployment) (cluster next : Cluster) (me : Address)
    (action : Process.Action) : Prop where
  member : me ∈ deployment.replicas
  own : (cluster.process deployment me).step me (deployment.config me) action =
    some (next.process deployment me)
  redis : ∀ machine, machine ≠ deployment.machine me → next.redis machine = cluster.redis machine
  replica : ∀ other, other ≠ me → next.replica other = cluster.replica other
  wire : next.wire = (cluster.process deployment me).forwards me action ++ cluster.wire
  executed : next.executed = Process.begins me action ++ cluster.executed

theorem acts_of_act (hact : cluster.act deployment me action = some next) :
    Acts deployment cluster next me action := by
  unfold act at hact
  split_ifs at hact with hmem
  obtain ⟨after, hafter, rfl⟩ := Option.map_eq_some_iff.mp hact
  refine ⟨hmem, ?_, fun machine hne => Function.update_of_ne hne _ _,
    fun other hne => Function.update_of_ne hne _ _, rfl, rfl⟩
  simpa [process] using hafter

theorem mem_acceptedBy {process : Process} {entry : Address × FutureId}
    (hentry : entry ∈ Process.acceptedBy me process action) :
    ∃ request refusal now, action = .server (.execute request refusal now) ∧
      entry = (me, request.futureId) := by
  unfold Process.acceptedBy at hentry
  split at hentry
  case h_1 request refusal now =>
    split at hentry
    case h_1 | h_2 => cases hentry
    case h_3 | h_4 => exact ⟨request, refusal, now, rfl, List.mem_singleton.mp hentry⟩
  case h_2 => cases hentry

/-- Only the controller that steps sets a marker, and only its own. -/
theorem Acts.accepted (hacts : Acts deployment cluster next me action) {other : Address} :
    (other, futureId) ∈ (next.redis (deployment.machine other)).accepted ↔
      (other, futureId) ∈ (cluster.redis (deployment.machine other)).accepted ∨
        (other, futureId) ∈ Process.acceptedBy me (cluster.process deployment me) action := by
  have haccepted : (next.redis (deployment.machine me)).accepted =
      Process.acceptedBy me (cluster.process deployment me) action ++
        (cluster.redis (deployment.machine me)).accepted :=
    (Process.step_effect hacts.own).accepted
  by_cases hmachine : deployment.machine other = deployment.machine me
  · rw [hmachine, haccepted, List.mem_append]
    exact or_comm
  · rw [hacts.redis _ hmachine]
    refine ⟨Or.inl, fun h => h.resolve_right fun hnew => ?_⟩
    obtain ⟨_, _, _, -, heq⟩ := mem_acceptedBy hnew
    cases heq
    exact hmachine rfl

theorem count_begins (me other : Address) (futureId : FutureId) (action : Process.Action) :
    (Process.begins me action).count (other, futureId) =
      if other = me then Process.runBy futureId action else 0 := by
  unfold Process.begins Process.runBy
  split
  case h_1 call =>
    rw [List.count_singleton]
    by_cases hother : other = me
    · simp [hother, oneOf]
    · simp [hother, Ne.symm hother]
  case h_2 => simp

theorem Acts.copies (hacts : Acts deployment cluster next me action)
    (hinv : cluster.Inv deployment) (other : Address) (futureId : FutureId) :
    (next.replica other).calls.copies Stage.Unserved futureId + next.executed.count (other, futureId) ≤
      if (other, futureId) ∈ (next.redis (deployment.machine other)).accepted then 1 else 0 := by
  have hbound := hinv.copies other futureId
  have hmono : (if (other, futureId) ∈ (cluster.redis (deployment.machine other)).accepted
        then 1 else 0) ≤
      if (other, futureId) ∈ (next.redis (deployment.machine other)).accepted then 1 else 0 := by
    split_ifs with hold hnew
    · exact le_rfl
    · exact absurd (hacts.accepted.mpr (Or.inl hold)) hnew
    · exact Nat.zero_le _
    · exact le_rfl
  rw [hacts.executed, List.count_append, count_begins]
  by_cases hother : other = me
  · subst hother
    have hcopies : (next.replica other).calls.copies Stage.Unserved futureId + Process.runBy futureId action ≤
        (cluster.replica other).calls.copies Stage.Unserved futureId +
          Process.enteredBy other (cluster.process deployment other) futureId action :=
      Process.step_copies_le hacts.own futureId
    rw [if_pos rfl]
    rcases Process.enteredBy_cases other (cluster.process deployment other) action futureId with hzero | ⟨hone, hfresh, hmarked⟩
    · omega
    · rw [if_neg (show (other, futureId) ∉ (cluster.redis (deployment.machine other)).accepted
        from hfresh)] at hbound
      rw [if_pos (hacts.accepted.mpr (Or.inr hmarked))]
      omega
  · rw [if_neg hother, hacts.replica other hother]
    omega

/-- `Execute` runs here for a call made here or a message that arrived. -/
def Prompted (deployment : Deployment) (cluster : Cluster) (me : Address)
    (action : Process.Action) : Prop :=
  ∀ request refusal now, action = .server (.execute request refusal now) →
    me ≠ deployment.home request.futureId →
    request ∈ cluster.wire ∧ request.routeTo = some me

theorem Acts.pinned (hacts : Acts deployment cluster next me action)
    (hinv : cluster.Inv deployment) (hprompted : Prompted deployment cluster me action)
    (other : Address) (futureId : FutureId) (haway : other ≠ deployment.home futureId) :
    (next.replica other).calls.PinnedTo other futureId := by
  by_cases hother : other = me
  · subst hother
    refine Process.step_pinnedTo hacts.own (hinv.pinned other futureId haway) ?_
    rintro request refusal now rfl - rfl
    exact (hprompted request refusal now rfl haway).2
  · rw [hacts.replica other hother]
    exact hinv.pinned other futureId haway

/-- A new message is for a call made here, and goes to another replica. -/
theorem Acts.mem_forwards (hacts : Acts deployment cluster next me action)
    (hinv : cluster.Inv deployment) {request : Request}
    (hrequest : request ∈ (cluster.process deployment me).forwards me action) :
    ∃ address routed, action = .loop (.process (.forwarded address)) ∧
      (cluster.replica me).calls.hand = some (routed, .taken) ∧
      request = Calls.forwardedRequest me address routed ∧
      deployment.home routed.futureId = me := by
  unfold Process.forwards at hrequest
  split at hrequest
  case h_1 address =>
    split at hrequest
    case h_1 routed hhand =>
      refine ⟨address, routed, rfl, hhand, List.mem_singleton.mp hrequest, ?_⟩
      by_contra haway
      obtain ⟨taken, htaken, hne, hroute⟩ := Process.step_forwarded hacts.own
      obtain rfl : taken = routed := by simpa [htaken] using hhand
      have hpin := (hinv.pinned me taken.futureId (Ne.symm haway)).hand taken .taken htaken rfl
      simp [hpin, Ne.symm hne] at hroute
    case h_2 => cases hrequest
  case h_2 => cases hrequest

/-- `me` made the call and sends it to `target` in this step. -/
def Sends (deployment : Deployment) (cluster : Cluster) (me : Address) (action : Process.Action)
    (futureId : FutureId) (target : Address) : Prop :=
  deployment.home futureId = me ∧ action = .loop (.process (.forwarded target)) ∧
    ∃ routed, (cluster.replica me).calls.hand = some (routed, .taken) ∧
      routed.futureId = futureId

theorem Acts.claimed (hacts : Acts deployment cluster next me action)
    (hinv : cluster.Inv deployment) (hprompted : Prompted deployment cluster me action)
    {target : Address} (hclaimed : next.Claimed deployment futureId target) :
    cluster.Claimed deployment futureId target ∨
      Sends deployment cluster me action futureId target := by
  obtain ⟨haway, haccepted | ⟨request, hwire, hfuture, hroute⟩⟩ := hclaimed
  · rcases hacts.accepted.mp haccepted with hold | hnew
    · exact Or.inl ⟨haway, Or.inl hold⟩
    · obtain ⟨request, refusal, now, haction, heq⟩ := mem_acceptedBy hnew
      cases heq
      obtain ⟨hmem, hroute⟩ := hprompted request refusal now haction haway
      exact Or.inl ⟨haway, Or.inr ⟨request, hmem, rfl, hroute⟩⟩
  · rw [hacts.wire, List.mem_append] at hwire
    rcases hwire with hnew | hold
    · obtain ⟨address, routed, haction, hhand, rfl, hhome⟩ := hacts.mem_forwards hinv hnew
      cases hroute
      cases hfuture
      exact Or.inr ⟨hhome, haction, routed, hhand, rfl⟩
    · exact Or.inl ⟨haway, Or.inr ⟨request, hold, hfuture, hroute⟩⟩

/-- Whoever has a call that is clear for `target` is `target`. -/
theorem ClearFor.eq_of_claimed {target other : Address}
    (hclear : cluster.ClearFor deployment (deployment.home futureId) target futureId)
    (hinv : cluster.Inv deployment) (hclaimed : cluster.Claimed deployment futureId other) :
    other = target := by
  obtain ⟨haway, haccepted | ⟨request, hwire, hfuture, hroute⟩⟩ := hclaimed
  · by_contra hne
    exact hclear.1 other (hinv.member other futureId haccepted) haway hne haccepted
  · have htarget := hclear.2 request hwire hfuture
    rw [hroute] at htarget
    exact Option.some.inj htarget

theorem Sends.clearFor {target : Address}
    (hsends : Sends deployment cluster me action futureId target)
    (hguard : cluster.SendsOnce deployment (.own me action)) :
    cluster.ClearFor deployment (deployment.home futureId) target futureId := by
  obtain ⟨rfl, rfl, routed, hhand, rfl⟩ := hsends
  exact hguard target rfl routed (by simp [Cluster.routed, hhand]) rfl

theorem Acts.once (hacts : Acts deployment cluster next me action)
    (hinv : cluster.Inv deployment) (hprompted : Prompted deployment cluster me action)
    (hguard : cluster.SendsOnce deployment (.own me action)) (futureId : FutureId)
    (first second : Address) (hfirst : next.Claimed deployment futureId first)
    (hsecond : next.Claimed deployment futureId second) : first = second := by
  rcases hacts.claimed hinv hprompted hfirst with hfirst | hfirst <;>
    rcases hacts.claimed hinv hprompted hsecond with hsecond | hsecond
  · exact hinv.once futureId first second hfirst hsecond
  · exact (hsecond.clearFor hguard).eq_of_claimed hinv hfirst
  · exact ((hfirst.clearFor hguard).eq_of_claimed hinv hsecond).symm
  · obtain ⟨-, hfirst, -⟩ := hfirst
    obtain ⟨-, hsecond, -⟩ := hsecond
    rw [hfirst] at hsecond
    cases hsecond
    rfl

/-- A call about to be kept where it was made is in the hands of that controller's `run`. -/
theorem submittedBy_pos {process : Process}
    (hpos : 0 < Process.submittedBy process futureId action) :
    action = .loop (.process .local) ∧
      ∃ routed, process.replica.calls.hand = some (routed, .taken) ∧
        routed.futureId = futureId := by
  unfold Process.submittedBy at hpos
  split at hpos
  case h_1 =>
    unfold Calls.inHand at hpos
    split at hpos
    case h_1 routed hhand =>
      refine ⟨rfl, routed, hhand, ?_⟩
      by_contra hne
      simp [oneOf, hne] at hpos
    case h_2 => exact absurd hpos (lt_irrefl 0)
  case h_2 => exact absurd hpos (lt_irrefl 0)

theorem Acts.kept (hacts : Acts deployment cluster next me action)
    (hinv : cluster.Inv deployment) (hprompted : Prompted deployment cluster me action)
    (hguard : cluster.SendsOnce deployment (.own me action)) (futureId : FutureId)
    (target : Address)
    (hkept : 0 < (next.replica (deployment.home futureId)).calls.submitted Stage.Unserved futureId +
      next.executed.count (deployment.home futureId, futureId)) :
    ¬ next.Claimed deployment futureId target := by
  intro hclaimed
  rw [hacts.executed, List.count_append, count_begins] at hkept
  by_cases hhome : deployment.home futureId = me
  · subst hhome
    rw [if_pos rfl] at hkept
    have hsubmitted : (next.replica (deployment.home futureId)).calls.submitted Stage.Unserved futureId +
        Process.runBy futureId action ≤
        (cluster.replica (deployment.home futureId)).calls.submitted Stage.Unserved futureId +
          (cluster.process deployment (deployment.home futureId)).submittedBy futureId action :=
      Process.step_submitted_le hacts.own futureId
    rcases hacts.claimed hinv hprompted hclaimed with hbefore | hsends
    · have hnone := mt (fun h => hinv.kept futureId target h) (not_not.mpr hbefore)
      have hpos : 0 < (cluster.process deployment
          (deployment.home futureId)).submittedBy futureId action := by omega
      obtain ⟨rfl, routed, hhand, rfl⟩ := submittedBy_pos hpos
      change (cluster.replica _).calls.hand = _ at hhand
      have hclear := hguard _ rfl routed (by simp [Cluster.routed, hhand]) rfl
      exact hbefore.1 (hclear.eq_of_claimed hinv hbefore)
    · obtain ⟨-, rfl, routed, hhand, hfuture⟩ := hsends
      have hcopies := hinv.copies (deployment.home futureId) futureId
      have hhandCopy : 0 < (cluster.replica (deployment.home futureId)).calls.routable
          futureId := by
        simp only [Calls.routable, hhand, Calls.inHand, oneOf, hfuture, if_true]
        omega
      have hsubmittedBy : (cluster.process deployment
          (deployment.home futureId)).submittedBy futureId
            (.loop (.process (.forwarded target))) = 0 := rfl
      unfold Calls.copies at hcopies
      split_ifs at hcopies <;> omega
  · rw [if_neg hhome, hacts.replica _ hhome, Nat.zero_add] at hkept
    rcases hacts.claimed hinv hprompted hclaimed with hbefore | hsends
    · exact hinv.kept futureId target hkept hbefore
    · exact hhome hsends.1

theorem Acts.inv (hacts : Acts deployment cluster next me action)
    (hinv : cluster.Inv deployment) (hprompted : Prompted deployment cluster me action)
    (hguard : cluster.SendsOnce deployment (.own me action)) : next.Inv deployment where
  member other futureId haccepted := by
    rcases hacts.accepted.mp haccepted with hold | hnew
    · exact hinv.member other futureId hold
    · obtain ⟨_, _, _, -, heq⟩ := mem_acceptedBy hnew
      cases heq
      exact hacts.member
  copies := hacts.copies hinv
  pinned := hacts.pinned hinv hprompted
  once := hacts.once hinv hprompted hguard
  kept := hacts.kept hinv hprompted hguard

/-! ### Whole runs -/

/-- Losing messages takes nothing from the invariant. -/
theorem Inv.of_wire_subset (hinv : cluster.Inv deployment) {wire acknowledged : List Request}
    (hsubset : ∀ request ∈ wire, request ∈ cluster.wire) :
    Inv deployment { cluster with wire, acknowledged } := by
  have hclaimed : ∀ futureId target,
      Claimed deployment { cluster with wire, acknowledged } futureId target →
      cluster.Claimed deployment futureId target := by
    rintro futureId target ⟨haway, haccepted | ⟨request, hwire, hrequest⟩⟩
    · exact ⟨haway, Or.inl haccepted⟩
    · exact ⟨haway, Or.inr ⟨request, hsubset request hwire, hrequest⟩⟩
  exact
    { member := hinv.member
      copies := hinv.copies
      pinned := hinv.pinned
      once := fun futureId first second hfirst hsecond =>
        hinv.once futureId first second (hclaimed _ _ hfirst) (hclaimed _ _ hsecond)
      kept := fun futureId target hkept h => hinv.kept futureId target hkept (hclaimed _ _ h) }

theorem inv_step (action : ClusterAction) (hinv : cluster.Inv deployment)
    (hguard : cluster.SendsOnce deployment action)
    (hstep : cluster.step deployment action = some next) : next.Inv deployment := by
  cases action with
  | submit call refusal now =>
      simp only [step] at hstep
      split_ifs at hstep
      refine (acts_of_act hstep).inv hinv ?_ nofun
      rintro request refusal' now' haction haway
      cases haction
      exact absurd rfl haway
  | deliver request now =>
      simp only [step] at hstep
      split at hstep
      case h_1 target hroute =>
        by_cases hwire : request ∈ cluster.wire
        · rw [if_pos hwire] at hstep
          obtain ⟨delivered, hact, rfl⟩ := Option.map_eq_some_iff.mp hstep
          refine Inv.of_wire_subset ((acts_of_act hact).inv hinv ?_ nofun) fun other hmem =>
            List.mem_of_mem_erase hmem
          rintro request' refusal' now' haction -
          cases haction
          exact ⟨hwire, hroute⟩
        · rw [if_neg hwire] at hstep
          cases hstep
      case h_2 => cases hstep
  | lose request =>
      simp only [step] at hstep
      split_ifs at hstep
      cases hstep
      exact hinv.of_wire_subset fun other hmem => List.mem_of_mem_erase hmem
  | own me action =>
      simp only [step] at hstep
      split_ifs at hstep with hunprompted
      refine (acts_of_act hstep).inv hinv ?_ hguard
      rintro request refusal now rfl
      exact absurd hunprompted.1 (by simp [Process.Action.isExecute])

theorem inv_init : Inv deployment {} where
  member _ _ haccepted := by cases haccepted
  copies _ _ := by simp [Calls.copies, Calls.routable, Calls.submitted, Calls.inHand, workersOf]
  pinned _ _ _ :=
    { entering := fun _ hmem => by cases hmem
      queued := fun _ hmem => by cases hmem
      hand := fun _ _ heq => by cases heq
      attempts := fun _ hmem => by cases hmem
      backoffs := fun _ hmem => by cases hmem }
  once _ _ _ hfirst := by
    obtain ⟨-, haccepted | ⟨_, hwire, -⟩⟩ := hfirst
    · cases haccepted
    · cases hwire
  kept _ _ hkept := by simp [Calls.submitted, workersOf] at hkept

theorem mem_executed_unique (hinv : cluster.Inv deployment) {first second : Address}
    (hfirst : (first, futureId) ∈ cluster.executed)
    (hsecond : (second, futureId) ∈ cluster.executed) : first = second := by
  have hclaimed : ∀ target, (target, futureId) ∈ cluster.executed →
      target ≠ deployment.home futureId → cluster.Claimed deployment futureId target := by
    intro target hmem haway
    refine ⟨haway, Or.inl ?_⟩
    by_contra hfresh
    have hcopies := hinv.copies target futureId
    rw [if_neg hfresh] at hcopies
    have := List.count_pos_iff.mpr hmem
    omega
  have hhome : ∀ target, (deployment.home futureId, futureId) ∈ cluster.executed →
      ¬ cluster.Claimed deployment futureId target := fun target hmem =>
    hinv.kept futureId target (Nat.add_pos_right _ (List.count_pos_iff.mpr hmem))
  by_cases hfirstHome : first = deployment.home futureId <;>
    by_cases hsecondHome : second = deployment.home futureId
  · rw [hfirstHome, hsecondHome]
  · exact absurd (hclaimed second hsecond hsecondHome) (hhome second (hfirstHome ▸ hfirst))
  · exact absurd (hclaimed first hfirst hfirstHome) (hhome first (hsecondHome ▸ hsecond))
  · exact hinv.once futureId first second (hclaimed first hfirst hfirstHome)
      (hclaimed second hsecond hsecondHome)

/-- While every call goes only where it is clear to go, its method begins at most once over all
replicas. -/
theorem executed_at_most_once {actions : List ClusterAction}
    (hguard : (system deployment).Guarded (SendsOnce deployment) {} actions)
    (hrun : (system deployment).run {} actions = some cluster) (futureId : FutureId) :
    cluster.executed.countP (·.2 = futureId) ≤ 1 := by
  have hinv : cluster.Inv deployment :=
    (system deployment).invariant_run (fun _ action _ hinv hguard hstep =>
      inv_step action hinv hguard hstep) inv_init hguard hrun
  by_cases hnone : ∃ me, (me, futureId) ∈ cluster.executed
  · obtain ⟨me, hme⟩ := hnone
    have hcopies := hinv.copies me futureId
    have hcount : cluster.executed.countP (·.2 = futureId) =
        cluster.executed.count (me, futureId) := by
      refine List.countP_congr fun entry hentry => ?_
      obtain ⟨other, otherId⟩ := entry
      simp only [decide_eq_true_eq, beq_iff_eq, Prod.mk.injEq]
      refine ⟨fun heq => ⟨?_, heq⟩, fun h => h.2⟩
      exact mem_executed_unique hinv (heq ▸ hentry) hme
    rw [hcount]
    split_ifs at hcopies <;> omega
  · refine (List.countP_eq_zero.mpr fun entry hentry => ?_).trans_le (Nat.zero_le 1)
    simp only [decide_eq_true_eq]
    exact fun heq => hnone ⟨entry.1, heq ▸ hentry⟩

/-! ### A lost reply, and a refusal -/

def threeReplicas : Deployment where
  replicas := ["o:1", "a:1", "b:1"]
  machine := id
  config _ := {}
  home _ := "o:1"

def nestedCall : Request :=
  { futureId := "f", service := "Agent", function := "work", requestId := some "r"
    parent := some "p" }

def firstAttempt : Request := Calls.forwardedRequest "o:1" "a:1" nestedCall

def secondAttempt : Request :=
  Calls.forwardedRequest "o:1" "b:1" (retryRequest firstAttempt .unavailable)

/-- `me` sends the request it takes next on to `address`. -/
def forwarding (me address : Address) : List ClusterAction :=
  [.own me (.loop .take), .own me (.loop (.process (.forwarded address))),
    .own me (.loop .taskDone)]

/-- `me` queues the request that has arrived and runs it. -/
def running (me : Address) (request : Request) : List ClusterAction :=
  [.own me (.server (.put request)), .own me (.loop .take), .own me (.loop (.process .local)),
    .own me (.loop .register), .own me (.loop .taskDone), .own me (.worker .dequeue),
    .own me (.worker (.work request .dequeued .start)),
    .own me (.worker (.work request .started .serve))]

/-- The first replica runs the call, and its answer to `Execute` is lost. -/
def lostReply : List ClusterAction :=
  [.submit nestedCall none 0, .own "o:1" (.server (.put nestedCall))] ++
    forwarding "o:1" "a:1" ++ [.deliver firstAttempt 0] ++ running "a:1" firstAttempt ++
    [.own "o:1" (.forward (.onForwarded firstAttempt .unavailable 2))] ++
    forwarding "o:1" "b:1" ++ [.deliver secondAttempt 0] ++ running "b:1" secondAttempt

/-- The first replica drains and refuses the call. -/
def refusedFirst : List ClusterAction :=
  [.submit nestedCall none 0, .own "o:1" (.server (.put nestedCall)),
    .own "a:1" (.metrics (.drain 300000000)), .own "a:1" (.metrics (.tick 0))] ++
    forwarding "o:1" "a:1" ++ [.deliver firstAttempt 0,
    .own "o:1" (.forward (.onForwarded firstAttempt .unavailable 2))] ++
    forwarding "o:1" "b:1" ++ [.deliver secondAttempt 0] ++ running "b:1" secondAttempt

/-- Un-pinned after a reply was lost, the call goes to a second replica, whose own marker is not
set: both run it. -/
theorem lost_reply_executes_twice :
    ∃ final, (system threeReplicas).run {} lostReply = some final ∧
      final.executed = [("b:1", "f"), ("a:1", "f")] :=
  ⟨_, rfl, rfl⟩

theorem executed_at_most_once_refused :
    ∃ final, (system threeReplicas).run {} refusedFirst = some final ∧
      ("b:1", "f") ∈ final.executed ∧ final.executed.countP (·.2 = "f") ≤ 1 :=
  ⟨_, rfl, by decide, executed_at_most_once (show (system threeReplicas).Guarded
    (SendsOnce threeReplicas) {} refusedFirst by decide) rfl "f"⟩

end Cluster

end CanyonOS
