import Mathlib.Control.Basic

/-!
# Programs that may raise

A program over a state either returns or raises, and a state it has changed before it raises stays
changed. Whether it returns, whether it raises, and what of the state it keeps follow from its parts.
-/

/-- Raising does not undo what was done to the state. -/
abbrev Raising (State Error Value : Type) := ExceptT Error (StateM State) Value

namespace Raising

variable {State Error Value Result Item View : Type}

def exec (program : Raising State Error Value) (state : State) : Except Error Value × State :=
  (ExceptT.run program).run state

/-- A check that reads no state. -/
def check : Except Error Value → Raising State Error Value
  | .ok value => pure value
  | .error error => throw error

/-- From any state. -/
def Returns (program : Raising State Error Value) : Prop :=
  ∀ state, ∃ value after, program.exec state = (.ok value, after)

def Raises (program : Raising State Error Value) : Prop :=
  ∀ state, ∃ error after, program.exec state = (.error error, after)

def Keeps (view : State → View) (program : Raising State Error Value) : Prop :=
  ∀ state, view (program.exec state).2 = view state

/-! ### What one step does -/

theorem exec_pure (value : Value) (state : State) :
    exec (pure value : Raising State Error Value) state = (.ok value, state) :=
  rfl

theorem exec_throw (error : Error) (state : State) :
    exec (throw error : Raising State Error Value) state = (.error error, state) :=
  rfl

theorem exec_get (state : State) :
    exec (get : Raising State Error State) state = (.ok state, state) :=
  rfl

theorem exec_modify (change : State → State) (state : State) :
    exec (modify change : Raising State Error PUnit) state = (.ok ⟨⟩, change state) :=
  rfl

theorem exec_bind_of_ok {program : Raising State Error Value}
    {next : Value → Raising State Error Result} {state after : State} {value : Value}
    (hfirst : program.exec state = (.ok value, after)) :
    (program >>= next).exec state = (next value).exec after := by
  unfold exec at hfirst ⊢
  rw [ExceptT.run_bind, StateT.run_bind, hfirst]
  rfl

theorem exec_bind_of_error {program : Raising State Error Value}
    {next : Value → Raising State Error Result} {state after : State} {error : Error}
    (hfirst : program.exec state = (.error error, after)) :
    (program >>= next).exec state = (.error error, after) := by
  unfold exec at hfirst ⊢
  rw [ExceptT.run_bind, StateT.run_bind, hfirst]
  rfl

/-! ### Returning -/

theorem returns_pure (value : Value) : Returns (pure value : Raising State Error Value) :=
  fun state => ⟨value, state, rfl⟩

theorem returns_get : Returns (get : Raising State Error State) :=
  fun state => ⟨state, state, rfl⟩

theorem returns_modify (change : State → State) :
    Returns (modify change : Raising State Error PUnit) :=
  fun state => ⟨⟨⟩, change state, rfl⟩

theorem Returns.bind {program : Raising State Error Value}
    {next : Value → Raising State Error Result} (hfirst : program.Returns)
    (hnext : ∀ value, (next value).Returns) : (program >>= next).Returns := by
  intro state
  obtain ⟨value, middle, hvalue⟩ := hfirst state
  obtain ⟨result, after, hresult⟩ := hnext value middle
  exact ⟨result, after, by rw [exec_bind_of_ok hvalue, hresult]⟩

theorem returns_forM {items : List Item} {body : Item → Raising State Error PUnit}
    (hbody : ∀ item ∈ items, (body item).Returns) : Returns (items.forM body) := by
  induction items with
  | nil => exact returns_pure _
  | cons item items ih =>
      obtain ⟨hitem, hitems⟩ := List.forall_mem_cons.mp hbody
      exact Returns.bind hitem fun _ => ih hitems

theorem returns_mapM {items : List Item} {body : Item → Raising State Error Value}
    (hbody : ∀ item ∈ items, (body item).Returns) : Returns (items.mapM body) := by
  induction items with
  | nil => exact returns_pure _
  | cons item items ih =>
      obtain ⟨hitem, hitems⟩ := List.forall_mem_cons.mp hbody
      rw [List.mapM_cons]
      exact hitem.bind fun _ => (ih hitems).bind fun _ => returns_pure _

/-! ### Raising -/

theorem raises_throw (error : Error) : Raises (throw error : Raising State Error Value) :=
  fun state => ⟨error, state, rfl⟩

theorem Raises.bind {program : Raising State Error Value} (hfirst : program.Raises)
    (next : Value → Raising State Error Result) : (program >>= next).Raises := by
  intro state
  obtain ⟨error, after, herror⟩ := hfirst state
  exact ⟨error, after, exec_bind_of_error herror⟩

/-- Whether or not the first part gets to the second. -/
theorem raises_bind {program : Raising State Error Value}
    {next : Value → Raising State Error Result} (hnext : ∀ value, (next value).Raises) :
    (program >>= next).Raises := by
  intro state
  match hfirst : program.exec state with
  | (.ok value, middle) =>
      obtain ⟨error, after, herror⟩ := hnext value middle
      exact ⟨error, after, by rw [exec_bind_of_ok hfirst, herror]⟩
  | (.error error, after) => exact ⟨error, after, exec_bind_of_error hfirst⟩

theorem raises_forM {items : List Item} {body : Item → Raising State Error PUnit} {item : Item}
    (hmem : item ∈ items) (hitem : (body item).Raises) : Raises (items.forM body) := by
  induction items with
  | nil => cases hmem
  | cons first items ih =>
      rcases List.mem_cons.mp hmem with rfl | hmem
      · exact Raises.bind hitem _
      · exact raises_bind fun _ => ih hmem

theorem raises_mapM {items : List Item} {body : Item → Raising State Error Value} {item : Item}
    (hmem : item ∈ items) (hitem : (body item).Raises) : Raises (items.mapM body) := by
  induction items with
  | nil => cases hmem
  | cons first items ih =>
      rw [List.mapM_cons]
      rcases List.mem_cons.mp hmem with rfl | hmem
      · exact hitem.bind _
      · exact raises_bind fun _ => (ih hmem).bind _

/-! ### Keeping a part of the state -/

section Keeps

variable {view : State → View}

theorem keeps_pure (value : Value) : Keeps view (pure value : Raising State Error Value) :=
  fun _ => rfl

theorem keeps_throw (error : Error) : Keeps view (throw error : Raising State Error Value) :=
  fun _ => rfl

theorem keeps_get : Keeps view (get : Raising State Error State) :=
  fun _ => rfl

theorem keeps_modify {change : State → State} (hchange : ∀ state, view (change state) = view state) :
    Keeps view (modify change : Raising State Error PUnit) :=
  hchange

theorem Keeps.bind {program : Raising State Error Value}
    {next : Value → Raising State Error Result} (hfirst : program.Keeps view)
    (hnext : ∀ value, (next value).Keeps view) : (program >>= next).Keeps view := by
  intro state
  have hkept := hfirst state
  match hrun : program.exec state with
  | (.ok value, middle) =>
      rw [exec_bind_of_ok hrun, hnext value middle]
      rwa [hrun] at hkept
  | (.error error, after) =>
      rw [exec_bind_of_error hrun]
      rwa [hrun] at hkept

theorem keeps_forM {items : List Item} {body : Item → Raising State Error PUnit}
    (hbody : ∀ item ∈ items, (body item).Keeps view) : Keeps view (items.forM body) := by
  induction items with
  | nil => exact keeps_pure _
  | cons item items ih =>
      obtain ⟨hitem, hitems⟩ := List.forall_mem_cons.mp hbody
      exact Keeps.bind hitem fun _ => ih hitems

theorem keeps_mapM {items : List Item} {body : Item → Raising State Error Value}
    (hbody : ∀ item ∈ items, (body item).Keeps view) : Keeps view (items.mapM body) := by
  induction items with
  | nil => exact keeps_pure _
  | cons item items ih =>
      obtain ⟨hitem, hitems⟩ := List.forall_mem_cons.mp hbody
      rw [List.mapM_cons]
      exact hitem.bind fun _ => (ih hitems).bind fun _ => keeps_pure _

end Keeps

end Raising
