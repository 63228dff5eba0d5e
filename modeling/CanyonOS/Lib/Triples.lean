import CanyonOS.Lib.Raising

/-!
# Triples of programs that may raise

What holds when a program returns, and what holds when it raises, of every state it can start in.
-/

namespace Raising

variable {State Error Value Result Item : Type}

theorem exec_tryCatch_of_ok {program : Raising State Error Value}
    {handler : Error → Raising State Error Value} {state after : State} {value : Value}
    (hprogram : program.exec state = (.ok value, after)) :
    (tryCatch program handler).exec state = (.ok value, after) := by
  unfold exec at hprogram ⊢
  rw [ExceptT.run_tryCatch, StateT.run_bind, hprogram]
  rfl

theorem exec_tryCatch_of_error {program : Raising State Error Value}
    {handler : Error → Raising State Error Value} {state after : State} {error : Error}
    (hprogram : program.exec state = (.error error, after)) :
    (tryCatch program handler).exec state = (handler error).exec after := by
  unfold exec at hprogram ⊢
  rw [ExceptT.run_tryCatch, StateT.run_bind, hprogram]
  rfl

def Triple (pre : State → Prop) (program : Raising State Error Value)
    (post : Value → State → Prop) (raised : Error → State → Prop) : Prop :=
  ∀ state, pre state →
    match program.exec state with
    | (.ok value, after) => post value after
    | (.error error, after) => raised error after

/-- An invariant that the program keeps, whether or not it raises. -/
def Preserves (invariant : State → Prop) (program : Raising State Error Value) : Prop :=
  Triple invariant program (fun _ => invariant) fun _ => invariant

section Rules

variable {pre weaker : State → Prop} {program : Raising State Error Value}
  {post : Value → State → Prop} {raised : Error → State → Prop}

theorem Triple.weaken {stronger : State → Prop} {post' : Value → State → Prop}
    {raised' : Error → State → Prop} (htriple : Triple pre program post raised)
    (hpre : ∀ state, stronger state → pre state)
    (hpost : ∀ value state, post value state → post' value state)
    (hraised : ∀ error state, raised error state → raised' error state) :
    Triple stronger program post' raised' := by
  intro state hstate
  have hends := htriple state (hpre state hstate)
  match hrun : program.exec state with
  | (.ok value, after) =>
      rw [hrun] at hends
      exact hpost value after hends
  | (.error error, after) =>
      rw [hrun] at hends
      exact hraised error after hends

theorem Triple.of_pre {stronger : State → Prop} (htriple : Triple pre program post raised)
    (hpre : ∀ state, stronger state → pre state) : Triple stronger program post raised :=
  htriple.weaken hpre (fun _ _ => id) fun _ _ => id

theorem Triple.imp {post' : Value → State → Prop} (htriple : Triple pre program post raised)
    (hpost : ∀ value state, post value state → post' value state) :
    Triple pre program post' raised :=
  htriple.weaken (fun _ => id) hpost fun _ _ => id

/-- One start at a time. -/
theorem triple_of_forall
    (htriple : ∀ start, pre start → Triple (fun state => state = start) program post raised) :
    Triple pre program post raised :=
  fun start hstart => htriple start hstart start rfl

/-- What does not depend on the state. -/
theorem triple_of_imp {fact : Prop} (htriple : fact → Triple pre program post raised) :
    Triple (fun state => fact ∧ pre state) program post raised :=
  fun state hstate => htriple hstate.1 state hstate.2

theorem triple_pure {value : Value} (hpost : ∀ state, pre state → post value state) :
    Triple pre (pure value : Raising State Error Value) post raised :=
  hpost

theorem triple_throw {error : Error} (hraised : ∀ state, pre state → raised error state) :
    Triple pre (throw error : Raising State Error Value) post raised :=
  hraised

theorem triple_modify {change : State → State} {post : PUnit → State → Prop}
    (hpost : ∀ state, pre state → post ⟨⟩ (change state)) :
    Triple pre (modify change : Raising State Error PUnit) post raised :=
  hpost

theorem triple_set {value : State} {post : PUnit → State → Prop}
    (hpost : ∀ state, pre state → post ⟨⟩ value) :
    Triple pre (set value : Raising State Error PUnit) post raised :=
  hpost

/-- What is read is the state itself. -/
theorem triple_get_bind {next : State → Raising State Error Value}
    (hnext : ∀ state, pre state → Triple (fun start => start = state) (next state) post raised) :
    Triple pre (get >>= next) post raised := by
  intro state hstate
  rw [exec_bind_of_ok (exec_get state)]
  exact hnext state hstate state rfl

theorem Triple.bind {next : Value → Raising State Error Result} {post' : Result → State → Prop}
    (hfirst : Triple pre program post raised)
    (hnext : ∀ value, Triple (post value) (next value) post' raised) :
    Triple pre (program >>= next) post' raised := by
  intro state hstate
  have hends := hfirst state hstate
  match hrun : program.exec state with
  | (.ok value, middle) =>
      rw [hrun] at hends
      rw [exec_bind_of_ok hrun]
      exact hnext value middle hends
  | (.error error, after) =>
      rw [hrun] at hends
      rw [exec_bind_of_error hrun]
      exact hends

theorem Triple.tryCatch {handler : Error → Raising State Error Value}
    {caught : Error → State → Prop} (hprogram : Triple pre program post caught)
    (hhandler : ∀ error, Triple (caught error) (handler error) post raised) :
    Triple pre (tryCatch program handler) post raised := by
  intro state hstate
  have hends := hprogram state hstate
  match hrun : program.exec state with
  | (.ok value, after) =>
      rw [hrun] at hends
      rw [exec_tryCatch_of_ok hrun]
      exact hends
  | (.error error, after) =>
      rw [hrun] at hends
      rw [exec_tryCatch_of_error hrun]
      exact hhandler error after hends

/-! ### Loops -/

/-- What holds of the items done, of those still to do and of the values so far. -/
theorem triple_mapM {body : Item → Raising State Error Value}
    {invariant : List Item → List Item → List Value → State → Prop} {items : List Item}
    (hbody : ∀ done item rest values, items = done ++ item :: rest →
      Triple (invariant done (item :: rest) values) (body item)
        (fun value => invariant (done ++ [item]) rest (values ++ [value])) raised) :
    Triple (invariant [] items []) (items.mapM body) (invariant items []) raised := by
  suffices hrest : ∀ rest done values, items = done ++ rest →
      Triple (invariant done rest values) (rest.mapM body)
        (fun more => invariant items [] (values ++ more)) raised from
    hrest items [] [] rfl
  intro rest
  induction rest with
  | nil =>
      intro done values hitems
      rw [List.append_nil] at hitems
      apply triple_pure
      intro state hstate
      rwa [List.reverse_nil, List.append_nil, hitems]
  | cons item rest ih =>
      intro done values hitems
      rw [List.mapM_cons]
      refine (hbody done item rest values hitems).bind fun value => ?_
      have hdone : items = (done ++ [item]) ++ rest := by
        rw [hitems, List.append_assoc]
        rfl
      refine (ih (done ++ [item]) (values ++ [value]) hdone).bind fun more => ?_
      apply triple_pure
      intro state hstate
      rwa [List.append_assoc] at hstate

theorem triple_forM {body : Item → Raising State Error PUnit}
    {invariant : List Item → List Item → State → Prop} {items : List Item}
    (hbody : ∀ done item rest, items = done ++ item :: rest →
      Triple (invariant done (item :: rest)) (body item)
        (fun _ => invariant (done ++ [item]) rest) raised) :
    Triple (invariant [] items) (items.forM body) (fun _ => invariant items []) raised := by
  suffices hrest : ∀ rest done, items = done ++ rest →
      Triple (invariant done rest) (rest.forM body) (fun _ => invariant items []) raised from
    hrest items [] rfl
  intro rest
  induction rest with
  | nil =>
      intro done hitems
      rw [List.append_nil] at hitems
      apply triple_pure
      intro state hstate
      rwa [hitems]
  | cons item rest ih =>
      intro done hitems
      refine (hbody done item rest hitems).bind fun _ => ?_
      apply ih
      rw [hitems, List.append_assoc]
      rfl

end Rules

/-! ### Invariants -/

section Preserves

variable {invariant : State → Prop} {program : Raising State Error Value}

theorem preserves_pure (value : Value) :
    Preserves invariant (pure value : Raising State Error Value) :=
  triple_pure fun _ => id

theorem preserves_throw (error : Error) :
    Preserves invariant (throw error : Raising State Error Value) :=
  triple_throw fun _ => id

theorem preserves_modify {change : State → State}
    (hchange : ∀ state, invariant state → invariant (change state)) :
    Preserves invariant (modify change : Raising State Error PUnit) :=
  triple_modify hchange

theorem preserves_get_bind {next : State → Raising State Error Value}
    (hnext : ∀ state, invariant state → Preserves invariant (next state)) :
    Preserves invariant (get >>= next) := by
  apply triple_get_bind
  intro state hstate
  apply Triple.of_pre (hnext state hstate)
  rintro _ rfl
  exact hstate

theorem Preserves.bind {next : Value → Raising State Error Result}
    (hfirst : Preserves invariant program) (hnext : ∀ value, Preserves invariant (next value)) :
    Preserves invariant (program >>= next) :=
  Triple.bind hfirst hnext

theorem preserves_forM {items : List Item} {body : Item → Raising State Error PUnit}
    (hbody : ∀ item ∈ items, Preserves invariant (body item)) :
    Preserves invariant (items.forM body) := by
  refine @triple_forM _ _ _ _ _ (fun _ _ => invariant) _ ?_
  rintro done item rest rfl
  exact hbody item (List.mem_append_right _ List.mem_cons_self)

theorem preserves_mapM {items : List Item} {body : Item → Raising State Error Value}
    (hbody : ∀ item ∈ items, Preserves invariant (body item)) :
    Preserves invariant (items.mapM body) := by
  refine @triple_mapM _ _ _ _ _ _ (fun _ _ _ => invariant) _ ?_
  rintro done item rest values rfl
  exact hbody item (List.mem_append_right _ List.mem_cons_self)

end Preserves

end Raising
