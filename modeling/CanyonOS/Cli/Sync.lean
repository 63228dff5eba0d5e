import Mathlib
import CanyonOS.Lib.CodePoints
import CanyonOS.Lib.FileTree
import CanyonOS.Lib.TransitionSystem

/-!
# Sync

`run_sync`: it removes from the container's workspace what the sync manifest lists and the project
has no longer, copies the project with `docker cp` and saves the manifest. Each of these may fail,
and the container's own programs write to the workspace too.
-/

namespace CanyonOS.Sync

open CodePoints FileTree

abbrev Path := List CodePoints

inductive Kind where
  | directory
  | entry
deriving DecidableEq

variable {Content : Type}

def kindOf (node : Node Content) : Kind :=
  if node.isDirectory then .directory else .entry

def envName : CodePoints :=
  ofString ".env"

/-! ### The project -/

/-- The `.env` of the folder canyonos runs in. -/
inductive EnvFile (Content : Type) where
  | absent
  | inRoot
  | elsewhere (content : Content)

structure Project (Content : Type) where
  root : Tree CodePoints Content
  env : EnvFile Content
  env_inRoot : env = .inRoot → ∃ node ∈ root.get [envName], node.isDirectory = false

def Project.walked (project : Project Content) : List (Path × Kind) :=
  project.root.paths.filterMap fun path =>
    (project.root.get path).map fun node => (path, kindOf node)

/-- `_project_entries`. -/
def projectEntries (project : Project Content) : List (Path × Kind) :=
  match project.env with
  | .absent => project.walked
  | .inRoot | .elsewhere _ =>
      project.walked.filter (fun entry => entry.1 ≠ [envName]) ++ [([envName], .entry)]

/-- `_stale_entries`, the deepest first. -/
def staleEntries (previous current : List (Path × Kind)) : List (Path × Kind) :=
  (previous.filter fun entry => current.lookup entry.1 ≠ some entry.2).mergeSort
    fun first second => second.1.length ≤ first.1.length

/-! ### Removing -/

section Removing

variable (tree : Tree CodePoints Content)

/-- The directory it is in lies behind a link. -/
def crossesLink (path : Path) : Bool :=
  path.inits.dropLast.any fun above => (tree.get above).any Node.isLink

/-- A file stands where a directory above it would be. -/
def underFile (path : Path) : Bool :=
  path.inits.dropLast.any fun above => (tree.get above).any fun node => !node.isDirectory

/-- One entry of `_DELETE_STALE_SCRIPT`; none when it raises. -/
def removeEntry (entry : Path × Kind) : Option (Tree CodePoints Content) :=
  if hne : entry.1 ≠ [] then
    if crossesLink tree entry.1 then none
    else
      match entry.2 with
      | .directory =>
          if (tree.get entry.1).any Node.isDirectory then
            if hleaf : tree.isLeaf entry.1 = true then some (tree.erase entry.1 hne hleaf)
            else some tree
          else some tree
      | .entry =>
          if (tree.get entry.1).isNone ∧ underFile tree entry.1 then none
          else if (tree.get entry.1).any Node.isDirectory then some tree
          else if hleaf : tree.isLeaf entry.1 = true then some (tree.erase entry.1 hne hleaf)
          else some tree
  else none

def removeAll (stale : List (Path × Kind)) : Option (Tree CodePoints Content) :=
  stale.foldlM removeEntry tree

end Removing

/-! ### Copying -/

section Copying

variable [DecidableEq Content]

/-- How a run goes. -/
inductive Stop where
  | removing (done : ℕ)
  | copying
  | saving
  | never
deriving DecidableEq

structure Course where
  stop : Stop
  /-- what `docker cp` writes, in its order -/
  order : List Path
  /-- where a file lands that is copied onto a link `.env`, if in the workspace -/
  place : Option Path

/-- Where the `.env` of another folder lands. -/
def landing (tree : Tree CodePoints Content) (place : Option Path) : Option Path :=
  match tree.get [envName] with
  | some .directory => some [envName, envName]
  | some (.link _) => place
  | some (.file _) | none => some [envName]

def copyEnv (tree : Tree CodePoints Content) (content : Content) (place : Option Path) :
    Option (Tree CodePoints Content) :=
  match landing tree place with
  | none => some tree
  | some path => tree.write path (.file content)

/-- Both calls of `_copy`, and the paths they copy to. -/
def copy (project : Project Content) (tree : Tree CodePoints Content) (course : Course) :
    Option (Tree CodePoints Content × List Path) :=
  if course.order.Perm project.root.paths then do
    let tree ← Tree.writeAll project.root tree course.order
    match project.env with
    | .absent | .inRoot => some (tree, course.order)
    | .elsewhere content =>
        if course.place.isSome ∧ ¬ (tree.get [envName]).any Node.isLink then none
        else do
          let after ← copyEnv tree content course.place
          some (after, course.order ++ [envName] :: (landing tree course.place).toList)
  else none

/-! ### Runs -/

structure State (Content : Type) where
  container : Tree CodePoints Content
  /-- the entries of the sync manifest, none when it is another container's -/
  saved : List (Path × Kind)
  /-- every path a run has copied to -/
  copied : List Path

inductive Action (Content : Type) where
  | sync (project : Project Content) (course : Course)
  /-- what the container's programs leave the workspace as -/
  | work (container : Tree CodePoints Content)

/-- `run_sync`. -/
def runSync (state : State Content) (project : Project Content) (course : Course) :
    Option (State Content) :=
  let entries := projectEntries project
  let stale := staleEntries state.saved entries
  match course.stop with
  | .removing done =>
      (removeAll state.container (stale.take done)).map fun container =>
        { state with container }
  | .copying => do
      let cleaned ← removeAll state.container stale
      if course.order ⊆ project.root.paths then do
        let container ← Tree.writeAll project.root cleaned course.order
        some { state with container, copied := state.copied ++ course.order }
      else none
  | .saving => do
      let cleaned ← removeAll state.container stale
      let (container, paths) ← copy project cleaned course
      some { state with container, copied := state.copied ++ paths }
  | .never => do
      let cleaned ← removeAll state.container stale
      let (container, paths) ← copy project cleaned course
      some { container, saved := entries, copied := state.copied ++ paths }

def system (Content : Type) [DecidableEq Content] :
    TransitionSystem (State Content) (Action Content) where
  step state
    | .sync project course => runSync state project course
    | .work container => some { state with container }

/-- A container that no run has copied to yet. -/
def start (container : Tree CodePoints Content) : State Content where
  container := container
  saved := []
  copied := []

/-! ### What a run should do -/

section Wanted

variable (project : Project Content) (course : Course) (before after : State Content)

/-- It is not on the host any more. -/
def Gone (path : Path) : Prop :=
  path ∉ (projectEntries project).map Prod.fst ∧ course.place ≠ some path

/-- A directory with something in it that no run copied, this one neither. -/
def HoldsGenerated (tree : Tree CodePoints Content) (path : Path) : Prop :=
  ∃ below, path <+: below ∧ path ≠ below ∧ (tree.get below).isSome = true ∧
    below ∉ before.copied ∧ Gone project course below

structure Mirrors : Prop where
  present : ∀ path kind, (path, kind) ∈ projectEntries project →
    (after.container.get path).map kindOf = some kind
  gone : ∀ path ∈ before.copied, Gone project course path →
    after.container.get path = none ∨ HoldsGenerated project course before after.container path

/-- No path goes that no run had copied. -/
def Keeps : Prop :=
  ∀ path ∉ before.copied, (before.container.get path).isSome = true →
    (after.container.get path).isSome = true

/-- All that is there at or under it is in the manifest as what it is, and to be removed. -/
def Removable (path : Path) : Prop :=
  ∀ below, path <+: below → ∀ node ∈ before.container.get below,
    (below, kindOf node) ∈ staleEntries before.saved (projectEntries project)

/-- The manifest knows what earlier runs copied and the host has no longer, and the `.env` of
another folder can be copied to its name. -/
structure Recorded : Prop where
  known : ∀ path ∈ before.copied, Gone project course path →
    (before.container.get path).isSome = true →
      Removable project before path ∨
        HoldsGenerated project course before before.container path
  env_free : ∀ content, project.env = .elsewhere content →
    project.root.get [envName] ≠ some .directory ∧
      (before.container.get [envName] = some .directory → Removable project before [envName])

end Wanted

end Copying

/-! ### What removing does -/

section Removal

variable {tree after : Tree CodePoints Content} {entry : Path × Kind} {stale : List (Path × Kind)}

/-- The entry is what it is in the workspace, and nothing is in it. -/
def Removes (tree : Tree CodePoints Content) (entry : Path × Kind) : Prop :=
  (tree.get entry.1).map kindOf = some entry.2 ∧ tree.isLeaf entry.1 = true

theorem kindOf_eq_directory {node : Node Content} :
    kindOf node = .directory ↔ node.isDirectory = true := by
  cases node <;> simp [kindOf, Node.isDirectory]

theorem removeEntry_spec (hremove : removeEntry tree entry = some after) :
    (Removes tree entry → after.get entry.1 = none) ∧
      (¬ Removes tree entry → after.get entry.1 = tree.get entry.1) ∧
      ∀ other, other ≠ entry.1 → after.get other = tree.get other := by
  obtain ⟨path, kind⟩ := entry
  unfold removeEntry at hremove
  unfold Removes
  cases kind with
  | directory =>
      simp only at hremove ⊢
      split_ifs at hremove with hne hcross hdirectory hleaf <;> cases hremove
      · refine ⟨fun _ => Tree.get_erase_self, fun hnot => ?_, fun other => Tree.get_erase_of_ne⟩
        obtain ⟨node, hnode, hdirectory⟩ := (Option.any_eq_true _ _).mp hdirectory
        exact absurd ⟨by simp [hnode, kindOf, hdirectory], hleaf⟩ hnot
      · exact ⟨fun h => absurd h.2 hleaf, fun _ => rfl, fun _ _ => rfl⟩
      · refine ⟨fun h => absurd ?_ hdirectory, fun _ => rfl, fun _ _ => rfl⟩
        obtain ⟨node, hnode, hkind⟩ := Option.map_eq_some_iff.mp h.1
        simpa [hnode, kindOf] using hkind
  | entry =>
      simp only at hremove ⊢
      split_ifs at hremove with hne hcross hfile hdirectory hleaf <;> cases hremove
      · refine ⟨fun h => ?_, fun _ => rfl, fun _ _ => rfl⟩
        obtain ⟨node, hnode, hkind⟩ := Option.map_eq_some_iff.mp h.1
        simp [hnode, kindOf] at hkind hdirectory
        exact absurd hdirectory hkind
      · refine ⟨fun _ => Tree.get_erase_self, fun hnot => ?_, fun other => Tree.get_erase_of_ne⟩
        cases hget : tree.get path with
        | none => exact Tree.get_erase_self
        | some node =>
            refine absurd ⟨?_, hleaf⟩ hnot
            simpa [hget, kindOf] using hdirectory
      · exact ⟨fun h => absurd h.2 hleaf, fun _ => rfl, fun _ _ => rfl⟩

theorem get_removeEntry (hremove : removeEntry tree entry = some after) (path : Path) :
    after.get path = tree.get path ∨
      after.get path = none ∧ path = entry.1 ∧ Removes tree entry := by
  obtain ⟨hremoves, hkeeps, hothers⟩ := removeEntry_spec hremove
  by_cases heq : path = entry.1
  · subst heq
    by_cases h : Removes tree entry
    · exact .inr ⟨hremoves h, rfl, h⟩
    · exact .inl (hkeeps h)
  · exact .inl (hothers path heq)

theorem eq_of_removes (hremoves : Removes tree entry) {node : Node Content}
    (hnode : tree.get entry.1 = some node) : (entry.1, kindOf node) = entry := by
  have hkind := hremoves.1
  rw [hnode] at hkind
  exact Prod.ext rfl (Option.some.inj hkind)

theorem get_removeAll (hremove : removeAll tree stale = some after) (path : Path) :
    after.get path = tree.get path ∨ after.get path = none ∧ path ∈ stale.map Prod.fst := by
  induction stale generalizing tree with
  | nil =>
      cases hremove
      exact .inl rfl
  | cons entry stale ih =>
      rw [removeAll, List.foldlM_cons] at hremove
      obtain ⟨middle, hentry, hrest⟩ := Option.bind_eq_some_iff.mp hremove
      rw [List.map_cons, List.mem_cons]
      rcases ih hrest with hsame | ⟨hnone, hmem⟩
      · rcases get_removeEntry hentry path with hkept | ⟨hgone, hpath, -⟩
        · exact .inl (hsame.trans hkept)
        · exact .inr ⟨hsame.trans hgone, .inl hpath⟩
      · exact .inr ⟨hnone, .inr hmem⟩

theorem stale_of_removed (hremove : removeAll tree stale = some after) {path : Path}
    (hsome : (tree.get path).isSome = true) (hnone : after.get path = none) {below : Path}
    (hunder : path <+: below) {node : Node Content} (hnode : tree.get below = some node) :
    (below, kindOf node) ∈ stale := by
  induction stale generalizing tree node with
  | nil =>
      cases hremove
      simp [hnone] at hsome
  | cons entry stale ih =>
      rw [removeAll, List.foldlM_cons] at hremove
      obtain ⟨middle, hentry, hrest⟩ := Option.bind_eq_some_iff.mp hremove
      rcases get_removeEntry hentry below with hkept | ⟨-, rfl, hremoves⟩
      · rcases get_removeEntry hentry path with hpath | ⟨-, rfl, hremoves⟩
        · exact List.mem_cons_of_mem _ (ih hrest (hpath ▸ hsome) (hkept.trans hnode))
        · by_cases heq : entry.1 = below
          · subst heq
            exact List.mem_cons.mpr (.inl (eq_of_removes hremoves hnode))
          · rw [Tree.get_of_isLeaf hremoves.2 hunder heq] at hnode
            cases hnode
      · exact List.mem_cons.mpr (.inl (eq_of_removes hremoves hnode))

/-- The deepest first, so that a directory comes when it has been emptied. -/
theorem removed_of_stale (hremove : removeAll tree stale = some after)
    (hsorted : stale.Pairwise fun first second => second.1.length ≤ first.1.length) {path : Path}
    (hstale : ∀ below, path <+: below → ∀ node ∈ tree.get below, (below, kindOf node) ∈ stale) :
    after.get path = none := by
  induction stale generalizing tree with
  | nil =>
      cases hremove
      by_contra hsome
      obtain ⟨node, hnode⟩ := Option.ne_none_iff_exists'.mp hsome
      exact absurd (hstale path List.prefix_rfl node hnode) List.not_mem_nil
  | cons entry stale ih =>
      rw [removeAll, List.foldlM_cons] at hremove
      obtain ⟨middle, hentry, hrest⟩ := Option.bind_eq_some_iff.mp hremove
      obtain ⟨hfirst, hsorted⟩ := List.pairwise_cons.mp hsorted
      refine ih hrest hsorted fun below hunder node hnode => ?_
      have hbefore : tree.get below = some node := by
        rcases get_removeEntry hentry below with hkept | ⟨hgone, -⟩
        · exact hkept ▸ hnode
        · rw [Option.mem_def, hgone] at hnode
          cases hnode
      refine (List.mem_cons.mp (hstale below hunder node hbefore)).resolve_left fun heq => ?_
      -- the entry would have been removed: what is in it comes no later, being deeper
      have hleaf : tree.isLeaf below = true := by
        refine Tree.isLeaf_iff.mpr fun name => ?_
        by_contra hchild
        obtain ⟨child, hchild⟩ := Option.ne_none_iff_exists'.mp hchild
        have hmem := hstale (below ++ [name]) (hunder.trans (List.prefix_append ..)) child hchild
        rcases List.mem_cons.mp hmem with hself | hlater
        · have hpaths := congrArg Prod.fst (hself.trans heq.symm)
          simp at hpaths
        · have hlength := hfirst _ hlater
          rw [← heq] at hlength
          simp at hlength
      have hnone := (removeEntry_spec hentry).1
        ⟨by rw [← heq, hbefore]; rfl, by rw [← heq]; exact hleaf⟩
      rw [← heq] at hnone
      rw [Option.mem_def, hnone] at hnode
      cases hnode

end Removal

/-! ### What copying does -/

theorem landing_eq_name {tree : Tree CodePoints Content}
    (hnot : tree.get [envName] ≠ some .directory) {place : Option Path}
    {path : Path} (hlanding : landing tree place = some path) :
    path = [envName] ∨ place = some path := by
  unfold landing at hlanding
  cases hget : tree.get [envName] with
  | none =>
      rw [hget] at hlanding
      exact .inl (Option.some.inj hlanding).symm
  | some node =>
      rw [hget] at hlanding
      cases node with
      | directory => exact absurd hget hnot
      | file content => exact .inl (Option.some.inj hlanding).symm
      | link target => exact .inr hlanding

section Copied

variable [DecidableEq Content] {project : Project Content} {course : Course}
  {tree after : Tree CodePoints Content} {paths : List Path}

theorem exists_of_copyEnv {content : Content} {place : Option Path}
    (hcopy : copyEnv tree content place = some after) {path : Path} {old : Node Content}
    (hget : tree.get path = some old) :
    ∃ node, after.get path = some node ∧ kindOf node = kindOf old := by
  unfold copyEnv at hcopy
  cases hlanding : landing tree place with
  | none =>
      simp only [hlanding] at hcopy
      cases hcopy
      exact ⟨old, hget, rfl⟩
  | some target =>
      simp only [hlanding] at hcopy
      obtain ⟨node, hnode, hkind⟩ := Tree.exists_of_write hcopy hget
      exact ⟨node, hnode, by simp [kindOf, hkind]⟩

theorem get_copyEnv {content : Content} {place : Option Path}
    (hcopy : copyEnv tree content place = some after) {path : Path}
    (hpath : landing tree place ≠ some path) : after.get path = tree.get path := by
  unfold copyEnv at hcopy
  cases hlanding : landing tree place with
  | none =>
      simp only [hlanding] at hcopy
      cases hcopy
      rfl
  | some target =>
      simp only [hlanding] at hcopy
      refine Tree.get_write_of_ne hcopy fun heq => hpath ?_
      rw [hlanding, heq]

/-- A file is at `.env` after its copy, unless a directory was there. -/
theorem kind_copyEnv {content : Content} {place : Option Path}
    (hcopy : copyEnv tree content place = some after) :
    (after.get [envName]).map kindOf = some .entry ↔ tree.get [envName] ≠ some .directory := by
  cases hget : tree.get [envName] with
  | none =>
      have hwrite : tree.write [envName] (.file content) = some after := by
        simpa [copyEnv, landing, hget] using hcopy
      simp [Tree.get_write_self hwrite, kindOf, Node.isDirectory]
  | some old =>
      obtain ⟨node, hnode, hkind⟩ := exists_of_copyEnv hcopy hget
      rw [hnode, Option.map_some, hkind]
      cases old <;> simp [kindOf, Node.isDirectory]

/-- The tree of the project, then the `.env` of another folder. -/
theorem copy_spec (hcopy : copy project tree course = some (after, paths)) :
    course.order.Perm project.root.paths ∧
      ∃ middle, Tree.writeAll project.root tree course.order = some middle ∧
        ((∀ content, project.env ≠ .elsewhere content) ∧ after = middle ∧ paths = course.order ∨
          ∃ content, project.env = .elsewhere content ∧
            copyEnv middle content course.place = some after ∧
            paths = course.order ++ [envName] :: (landing middle course.place).toList) := by
  unfold copy at hcopy
  split_ifs at hcopy with hperm
  obtain ⟨middle, hwrite, hcopy⟩ := Option.bind_eq_some_iff.mp hcopy
  refine ⟨hperm, middle, hwrite, ?_⟩
  cases henv : project.env with
  | absent =>
      simp only [henv, Option.some.injEq, Prod.mk.injEq] at hcopy
      exact .inl ⟨by simp, hcopy.1.symm, hcopy.2.symm⟩
  | inRoot =>
      simp only [henv, Option.some.injEq, Prod.mk.injEq] at hcopy
      exact .inl ⟨by simp, hcopy.1.symm, hcopy.2.symm⟩
  | elsewhere content =>
      simp only [henv] at hcopy
      split_ifs at hcopy with hplace
      obtain ⟨copied, hcopied, hcopy⟩ := Option.bind_eq_some_iff.mp hcopy
      simp only [Option.some.injEq, Prod.mk.injEq] at hcopy
      obtain ⟨rfl, rfl⟩ := hcopy
      exact .inr ⟨content, rfl, hcopied, rfl⟩

end Copied

/-! ### What is listed -/

section Listed

variable {project : Project Content}

theorem mem_walked {path : Path} {kind : Kind} : (path, kind) ∈ project.walked ↔
    path ∈ project.root.paths ∧ (project.root.get path).map kindOf = some kind := by
  unfold Project.walked
  rw [List.mem_filterMap]
  constructor
  · rintro ⟨other, hmem, hentry⟩
    obtain ⟨node, hnode, heq⟩ := Option.map_eq_some_iff.mp hentry
    cases heq
    exact ⟨hmem, by rw [hnode]; rfl⟩
  · rintro ⟨hmem, hkind⟩
    obtain ⟨node, hnode, rfl⟩ := Option.map_eq_some_iff.mp hkind
    exact ⟨path, hmem, by rw [hnode]; rfl⟩

theorem mem_projectEntries {path : Path} {kind : Kind}
    (hmem : (path, kind) ∈ projectEntries project) :
    (path, kind) ∈ project.walked ∨ path = [envName] ∧ kind = .entry ∧ project.env ≠ .absent := by
  unfold projectEntries at hmem
  cases henv : project.env <;> simp only [henv] at hmem
  · exact .inl hmem
  all_goals
    rcases List.mem_append.mp hmem with hwalked | hlast
    · exact .inl (List.mem_filter.mp hwalked).1
    · obtain ⟨rfl, rfl⟩ := Prod.mk.inj (List.mem_singleton.mp hlast)
      exact .inr ⟨rfl, rfl, by simp⟩

theorem kind_of_env {kind : Kind} (hmem : ([envName], kind) ∈ projectEntries project)
    (henv : project.env ≠ .absent) : kind = .entry := by
  unfold projectEntries at hmem
  cases hcase : project.env <;> simp only [hcase] at hmem henv
  · exact absurd rfl henv
  all_goals
    rcases List.mem_append.mp hmem with hwalked | hlast
    · simp at hwalked
    · exact (Prod.mk.inj (List.mem_singleton.mp hlast)).2

theorem env_mem {content : Content} (henv : project.env = .elsewhere content) :
    ([envName], .entry) ∈ projectEntries project := by
  simp [projectEntries, henv]

/-- What is under the project root is listed. -/
theorem paths_subset :
    project.root.paths ⊆ (projectEntries project).map Prod.fst := by
  intro path hmem
  obtain ⟨node, hnode⟩ := Option.isSome_iff_exists.mp ((project.root.mem_paths path).mp hmem).2
  have hwalked : (path, kindOf node) ∈ project.walked := mem_walked.mpr ⟨hmem, by rw [hnode]; rfl⟩
  unfold projectEntries
  cases project.env <;> simp only
  · exact List.mem_map_of_mem hwalked
  all_goals
    by_cases heq : path = [envName]
    · subst heq
      simp
    · exact List.mem_map_of_mem (List.mem_append_left _ (List.mem_filter.mpr ⟨hwalked, by simpa⟩))

/-- What is listed is under the project root, or it is the `.env` of another folder. -/
theorem mem_paths_of_listed {path : Path} (hmem : path ∈ (projectEntries project).map Prod.fst) :
    path ∈ project.root.paths ∨
      path = [envName] ∧ ∃ content, project.env = .elsewhere content := by
  obtain ⟨⟨path, kind⟩, hentry, rfl⟩ := List.mem_map.mp hmem
  rcases mem_projectEntries hentry with hwalked | ⟨rfl, rfl, habsent⟩
  · exact .inl (mem_walked.mp hwalked).1
  · cases henv : project.env with
    | absent => exact absurd henv habsent
    | elsewhere content => exact .inr ⟨rfl, content, rfl⟩
    | inRoot =>
        obtain ⟨node, hnode, -⟩ := project.env_inRoot henv
        exact .inl ((project.root.mem_paths _).mpr ⟨by simp, Option.isSome_of_mem hnode⟩)

variable {previous current : List (Path × Kind)}

theorem mem_staleEntries {entry : Path × Kind} : entry ∈ staleEntries previous current ↔
    entry ∈ previous ∧ current.lookup entry.1 ≠ some entry.2 := by
  simp [staleEntries]

theorem sorted_staleEntries : (staleEntries previous current).Pairwise
    fun first second => second.1.length ≤ first.1.length := by
  refine (List.pairwise_mergeSort ?_ ?_ _).imp fun h => of_decide_eq_true h
  · intro first second third hfirst hsecond
    simp only [decide_eq_true_eq] at *
    omega
  · intro first second
    simp only [Bool.or_eq_true, decide_eq_true_eq]
    omega

theorem lookup_of_not_listed {path : Path} (hnot : path ∉ current.map Prod.fst) :
    current.lookup path = none := by
  rw [List.lookup_eq_none_iff]
  intro entry hmem
  rw [bne_iff_ne]
  exact fun heq => hnot (heq ▸ List.mem_map_of_mem hmem)

end Listed

/-! ### Runs of sync -/

/-- What is in the manifest a run has copied to. -/
def Remembered (state : State Content) : Prop :=
  ∀ path ∈ state.saved.map Prod.fst, path ∈ state.copied

theorem kept_of_removal {before : State Content} {stale : List (Path × Kind)}
    {cleaned : Tree CodePoints Content}
    (hremembered : Remembered before) (hstale : ∀ entry ∈ stale, entry ∈ before.saved)
    (hremove : removeAll before.container stale = some cleaned) {path : Path}
    (hpath : path ∉ before.copied) : cleaned.get path = before.container.get path := by
  refine (get_removeAll hremove path).resolve_right fun hgone => hpath ?_
  obtain ⟨entry, hentry, rfl⟩ := List.mem_map.mp hgone.2
  exact hremembered _ (List.mem_map_of_mem (hstale entry hentry))

section Runs

variable [DecidableEq Content] {project : Project Content} {course : Course}
  {before after : State Content}

/-- A run that copied everything. -/
structure Copies (project : Project Content) (course : Course) (before after : State Content)
    (cleaned middle : Tree CodePoints Content) (paths : List Path) : Prop where
  removed : removeAll before.container
    (staleEntries before.saved (projectEntries project)) = some cleaned
  perm : course.order.Perm project.root.paths
  written : Tree.writeAll project.root cleaned course.order = some middle
  env : (∀ content, project.env ≠ .elsewhere content) ∧ after.container = middle ∧
      paths = course.order ∨
    ∃ content, project.env = .elsewhere content ∧
      copyEnv middle content course.place = some after.container ∧
      paths = course.order ++ [envName] :: (landing middle course.place).toList
  copied : after.copied = before.copied ++ paths

theorem copies_of_never (hsync : runSync before project course = some after)
    (hstop : course.stop = .never) :
    ∃ cleaned middle paths, Copies project course before after cleaned middle paths ∧
      after.saved = projectEntries project := by
  unfold runSync at hsync
  simp only [hstop] at hsync
  obtain ⟨cleaned, hremove, hsync⟩ := Option.bind_eq_some_iff.mp hsync
  obtain ⟨⟨container, paths⟩, hcopy, hafter⟩ := Option.bind_eq_some_iff.mp hsync
  cases hafter
  obtain ⟨hperm, middle, hwrite, henv⟩ := copy_spec hcopy
  exact ⟨cleaned, middle, paths, ⟨hremove, hperm, hwrite, henv, rfl⟩, rfl⟩

theorem copies_of_saving (hsync : runSync before project course = some after)
    (hstop : course.stop = .saving) :
    ∃ cleaned middle paths, Copies project course before after cleaned middle paths ∧
      after.saved = before.saved := by
  unfold runSync at hsync
  simp only [hstop] at hsync
  obtain ⟨cleaned, hremove, hsync⟩ := Option.bind_eq_some_iff.mp hsync
  obtain ⟨⟨container, paths⟩, hcopy, hafter⟩ := Option.bind_eq_some_iff.mp hsync
  cases hafter
  obtain ⟨hperm, middle, hwrite, henv⟩ := copy_spec hcopy
  exact ⟨cleaned, middle, paths, ⟨hremove, hperm, hwrite, henv, rfl⟩, rfl⟩

namespace Copies

variable {cleaned middle : Tree CodePoints Content} {paths : List Path}
  (hcopies : Copies project course before after cleaned middle paths)

include hcopies

theorem exists_of_cleaned {path : Path} {old : Node Content} (hget : cleaned.get path = some old) :
    ∃ node, middle.get path = some node ∧ kindOf node = kindOf old := by
  obtain ⟨node, hnode, hkind⟩ := Tree.exists_of_writeAll hcopies.written hget
  exact ⟨node, hnode, by simp [kindOf, hkind]⟩

theorem exists_of_middle {path : Path} {old : Node Content} (hget : middle.get path = some old) :
    ∃ node, after.container.get path = some node ∧ kindOf node = kindOf old := by
  rcases hcopies.env with ⟨-, hafter, -⟩ | ⟨content, -, hcopy, -⟩
  · exact ⟨old, hafter ▸ hget, rfl⟩
  · exact exists_of_copyEnv hcopy hget

theorem keeps (hremembered : Remembered before) : Keeps before after := by
  intro path hpath hsome
  obtain ⟨node, hnode⟩ := Option.isSome_iff_exists.mp hsome
  have hcleaned := kept_of_removal hremembered (fun entry hentry => (mem_staleEntries.mp hentry).1)
    hcopies.removed hpath
  obtain ⟨written, hwritten, -⟩ := hcopies.exists_of_cleaned (hcleaned.trans hnode)
  obtain ⟨last, hlast, -⟩ := hcopies.exists_of_middle hwritten
  rw [hlast]
  rfl

/-- Where nothing is copied to, the workspace is as the removal left it. -/
theorem get_of_not_listed {path : Path}
    (hpath : path ∉ (projectEntries project).map Prod.fst) :
    middle.get path = cleaned.get path := by
  refine (Tree.get_writeAll hcopies.written).2 path fun hin => hpath ?_
  exact paths_subset (hcopies.perm.mem_iff.mp hin)

theorem get_of_gone (hmiddle : ∀ content, project.env = .elsewhere content →
      middle.get [envName] ≠ some .directory) {path : Path} (hpath : Gone project course path) :
    after.container.get path = cleaned.get path := by
  rw [← hcopies.get_of_not_listed hpath.1]
  rcases hcopies.env with ⟨-, hafter, -⟩ | ⟨content, henv, hcopy, -⟩
  · rw [hafter]
  · refine get_copyEnv hcopy fun hlanding => ?_
    rcases landing_eq_name (hmiddle content henv) hlanding with rfl | hplace
    · exact hpath.1 (List.mem_map_of_mem (env_mem henv))
    · exact hpath.2 hplace

theorem kind_of_root {path : Path} {node : Node Content} (hpath : path ∈ project.root.paths)
    (hnode : project.root.get path = some node) :
    (after.container.get path).map kindOf = some (kindOf node) := by
  have hmiddle := (Tree.get_writeAll hcopies.written).1 path (hcopies.perm.mem_iff.mpr hpath)
  obtain ⟨last, hlast, hkind⟩ := hcopies.exists_of_middle (hmiddle.trans hnode)
  rw [hlast, Option.map_some, hkind]

/-- The entries are all there, unless a directory takes the place of another folder's `.env`. -/
theorem present_iff : (∀ path kind, (path, kind) ∈ projectEntries project →
      (after.container.get path).map kindOf = some kind) ↔
    ∀ content, project.env = .elsewhere content → middle.get [envName] ≠ some .directory := by
  constructor
  · intro hpresent content henv
    have hentry := hpresent _ _ (env_mem henv)
    rcases hcopies.env with ⟨hnot, -, -⟩ | ⟨content', -, hcopy, -⟩
    · exact absurd henv (hnot content)
    · exact (kind_copyEnv hcopy).mp hentry
  · intro hmiddle path kind hmem
    by_cases henv : path = [envName] ∧ ∃ content, project.env = .elsewhere content
    · obtain ⟨rfl, content, henv⟩ := henv
      obtain rfl := kind_of_env hmem (by simp [henv])
      rcases hcopies.env with ⟨hnot, -, -⟩ | ⟨content', -, hcopy, -⟩
      · exact absurd henv (hnot content)
      · exact (kind_copyEnv hcopy).mpr (hmiddle content henv)
    · rcases mem_projectEntries hmem with hwalked | ⟨rfl, rfl, habsent⟩
      · obtain ⟨hpath, hkind⟩ := mem_walked.mp hwalked
        obtain ⟨node, hnode, rfl⟩ := Option.map_eq_some_iff.mp hkind
        exact hcopies.kind_of_root hpath hnode
      · cases hcase : project.env with
        | absent => exact absurd hcase habsent
        | elsewhere content => exact absurd ⟨rfl, content, hcase⟩ henv
        | inRoot =>
            obtain ⟨node, hnode, hfile⟩ := project.env_inRoot hcase
            have hpath := (project.root.mem_paths _).mpr ⟨by simp, Option.isSome_of_mem hnode⟩
            rw [hcopies.kind_of_root hpath hnode, kindOf, hfile]
            rfl

/-- The name is free for the `.env` of another folder when neither the project nor what stays in the
workspace has a directory there. -/
theorem env_free_iff : middle.get [envName] ≠ some .directory ↔
    project.root.get [envName] ≠ some .directory ∧
      (before.container.get [envName] = some .directory → Removable project before [envName]) := by
  constructor
  · intro hmiddle
    constructor
    · intro hroot
      have hpath := (project.root.mem_paths [envName]).mpr ⟨by simp, by rw [hroot]; rfl⟩
      refine hmiddle (((Tree.get_writeAll hcopies.written).1 _ ?_).trans hroot)
      exact hcopies.perm.mem_iff.mpr hpath
    · intro hdirectory below hunder node hnode
      refine stale_of_removed hcopies.removed (by rw [hdirectory]; rfl) ?_ hunder hnode
      refine ((get_removeAll hcopies.removed [envName]).resolve_left fun hkept => ?_).1
      obtain ⟨last, hlast, hkind⟩ := hcopies.exists_of_cleaned (hkept.trans hdirectory)
      have hlast' : last.isDirectory = true := kindOf_eq_directory.mp (hkind.trans rfl)
      exact hmiddle (hlast.trans (congrArg some (Node.isDirectory_iff.mp hlast')))
  · rintro ⟨hroot, hremovable⟩ hmiddle
    by_cases hpath : [envName] ∈ course.order
    · exact hroot (((Tree.get_writeAll hcopies.written).1 _ hpath).symm.trans hmiddle)
    · have hcleaned := ((Tree.get_writeAll hcopies.written).2 _ hpath).symm.trans hmiddle
      rcases get_removeAll hcopies.removed [envName] with hkept | ⟨hgone, -⟩
      · have hnone := removed_of_stale hcopies.removed sorted_staleEntries
          (hremovable (hkept.symm.trans hcleaned))
        rw [hnone] at hcleaned
        cases hcleaned
      · rw [hgone] at hcleaned
        cases hcleaned

theorem gone_iff (hremembered : Remembered before)
    (hmiddle : ∀ content, project.env = .elsewhere content →
      middle.get [envName] ≠ some .directory) :
    (∀ path ∈ before.copied, Gone project course path → after.container.get path = none ∨
        HoldsGenerated project course before after.container path) ↔
      ∀ path ∈ before.copied, Gone project course path →
        (before.container.get path).isSome = true → Removable project before path ∨
          HoldsGenerated project course before before.container path := by
  have hafter {path : Path} (hpath : Gone project course path) :=
    hcopies.get_of_gone hmiddle hpath
  constructor
  · intro hgone path hpath hnot hsome
    rcases hgone path hpath hnot with hnone | ⟨below, hunder, hne, hbelow, hnew, hkeep⟩
    · rw [hafter hnot] at hnone
      exact .inl fun below hunder node hnode =>
        stale_of_removed hcopies.removed hsome hnone hunder hnode
    · refine .inr ⟨below, hunder, hne, ?_, hnew, hkeep⟩
      rwa [hafter hkeep, kept_of_removal hremembered
        (fun entry hentry => (mem_staleEntries.mp hentry).1) hcopies.removed hnew] at hbelow
  · intro hknown path hpath hnot
    rw [hafter hnot]
    rcases get_removeAll hcopies.removed path with hkept | ⟨hgone, -⟩
    · cases hget : before.container.get path with
      | none => exact .inl (hkept.trans hget)
      | some node =>
          rcases hknown path hpath hnot (by rw [hget]; rfl) with
            hremovable | ⟨below, hunder, hne, hbelow, hnew, hkeep⟩
          · exact .inl (removed_of_stale hcopies.removed sorted_staleEntries hremovable)
          · refine .inr ⟨below, hunder, hne, ?_, hnew, hkeep⟩
            rwa [hafter hkeep, kept_of_removal hremembered
              (fun entry hentry => (mem_staleEntries.mp hentry).1) hcopies.removed hnew]
    · exact .inl hgone

theorem mirrors_iff (hremembered : Remembered before) :
    Mirrors project course before after ↔ Recorded project course before := by
  have hfree : (∀ content, project.env = .elsewhere content →
      middle.get [envName] ≠ some .directory) ↔ ∀ content, project.env = .elsewhere content →
        project.root.get [envName] ≠ some .directory ∧
          (before.container.get [envName] = some .directory →
            Removable project before [envName]) := by
    simp only [hcopies.env_free_iff]
  constructor
  · rintro ⟨hpresent, hgone⟩
    have hmiddle := hcopies.present_iff.mp hpresent
    exact ⟨(hcopies.gone_iff hremembered hmiddle).mp hgone, hfree.mp hmiddle⟩
  · rintro ⟨hknown, henv⟩
    have hmiddle := hfree.mpr henv
    exact ⟨hcopies.present_iff.mpr hmiddle, (hcopies.gone_iff hremembered hmiddle).mpr hknown⟩

/-- What the project lists, the run has copied to. -/
theorem listed_copied {path : Path} (hpath : path ∈ (projectEntries project).map Prod.fst) :
    path ∈ after.copied := by
  rw [hcopies.copied]
  refine List.mem_append_right _ ?_
  rcases mem_paths_of_listed hpath with hroot | ⟨rfl, content, henv⟩
  · have horder := hcopies.perm.mem_iff.mpr hroot
    rcases hcopies.env with ⟨-, -, rfl⟩ | ⟨content, -, -, rfl⟩
    · exact horder
    · exact List.mem_append_left _ horder
  · rcases hcopies.env with ⟨hnot, -, -⟩ | ⟨content, -, -, rfl⟩
    · exact absurd henv (hnot content)
    · simp

end Copies

theorem keeps_of_runSync (hremembered : Remembered before)
    (hsync : runSync before project course = some after) : Keeps before after := by
  cases hstop : course.stop with
  | never =>
      obtain ⟨cleaned, middle, paths, hcopies, -⟩ := copies_of_never hsync hstop
      exact hcopies.keeps hremembered
  | saving =>
      obtain ⟨cleaned, middle, paths, hcopies, -⟩ := copies_of_saving hsync hstop
      exact hcopies.keeps hremembered
  | removing done =>
      unfold runSync at hsync
      simp only [hstop] at hsync
      obtain ⟨container, hremove, rfl⟩ := Option.map_eq_some_iff.mp hsync
      intro path hpath hsome
      rwa [kept_of_removal hremembered (fun entry hentry =>
        (mem_staleEntries.mp (List.mem_of_mem_take hentry)).1) hremove hpath]
  | copying =>
      unfold runSync at hsync
      simp only [hstop] at hsync
      obtain ⟨cleaned, hremove, hsync⟩ := Option.bind_eq_some_iff.mp hsync
      split_ifs at hsync with horder
      obtain ⟨container, hwrite, hafter⟩ := Option.bind_eq_some_iff.mp hsync
      cases hafter
      intro path hpath hsome
      obtain ⟨node, hnode⟩ := Option.isSome_iff_exists.mp hsome
      have hcleaned := kept_of_removal hremembered
        (fun entry hentry => (mem_staleEntries.mp hentry).1) hremove hpath
      obtain ⟨written, hwritten, -⟩ := Tree.exists_of_writeAll hwrite (hcleaned.trans hnode)
      rw [hwritten]
      rfl

theorem remembered_of_runSync (hremembered : Remembered before)
    (hsync : runSync before project course = some after) : Remembered after := by
  cases hstop : course.stop with
  | never =>
      obtain ⟨cleaned, middle, paths, hcopies, hsaved⟩ := copies_of_never hsync hstop
      intro path hpath
      exact hcopies.listed_copied (hsaved ▸ hpath)
  | saving =>
      obtain ⟨cleaned, middle, paths, hcopies, hsaved⟩ := copies_of_saving hsync hstop
      intro path hpath
      rw [hcopies.copied]
      exact List.mem_append_left _ (hremembered path (hsaved ▸ hpath))
  | removing done =>
      unfold runSync at hsync
      simp only [hstop] at hsync
      obtain ⟨container, hremove, rfl⟩ := Option.map_eq_some_iff.mp hsync
      exact hremembered
  | copying =>
      unfold runSync at hsync
      simp only [hstop] at hsync
      obtain ⟨cleaned, hremove, hsync⟩ := Option.bind_eq_some_iff.mp hsync
      split_ifs at hsync with horder
      obtain ⟨container, hwrite, hafter⟩ := Option.bind_eq_some_iff.mp hsync
      cases hafter
      exact fun path hpath => List.mem_append_left _ (hremembered path hpath)

theorem remembered_of_run {container : Tree CodePoints Content} {actions : List (Action Content)}
    (hrun : (system Content).run (start container) actions = some before) :
    Remembered before := by
  have hstep (state : State Content) (action : Action Content) (next : State Content)
      (hremembered : Remembered state) (hstep : (system Content).step state action = some next) :
      Remembered next := by
    cases action with
    | sync project course => exact remembered_of_runSync hremembered hstep
    | work container =>
        cases hstep
        exact hremembered
  refine (system Content).invariant_of_run hstep ?_ hrun
  intro path hpath
  simp [start] at hpath

/-- After any sequence of runs a run removes nothing that no run had copied, and one that succeeds
mirrors the project exactly when the manifest knew what to remove. -/
theorem sync_mirrors_iff {container : Tree CodePoints Content} {actions : List (Action Content)}
    (hrun : (system Content).run (start container) actions = some before)
    (hsync : (system Content).step before (.sync project course) = some after) :
    Keeps before after ∧ (course.stop = .never →
      (Mirrors project course before after ↔ Recorded project course before)) := by
  have hremembered := remembered_of_run hrun
  refine ⟨keeps_of_runSync hremembered hsync, fun hstop => ?_⟩
  obtain ⟨cleaned, middle, paths, hcopies, -⟩ := copies_of_never hsync hstop
  exact hcopies.mirrors_iff hremembered

end Runs

section Example

def emptyTree : Tree CodePoints String where
  get path := if path = [] then some .directory else none
  paths := []
  get_nil := if_pos rfl
  mem_paths := by simp
  parent := by simp

def notesPath : Path :=
  [ofString "notes.md"]

def notesTree : Tree CodePoints String :=
  emptyTree.put notesPath (.file "draft") (by simp [notesPath]) rfl (by simp [emptyTree, notesPath])

def projectOf (root : Tree CodePoints String) : Project String where
  root := root
  env := .absent
  env_inRoot := by simp

def notesCourse (stop : Stop) : Course where
  stop := stop
  order := [notesPath]
  place := none

theorem get_notes : notesTree.get notesPath = some (.file "draft") := by
  rfl

def emptyCourse : Course where
  stop := .never
  order := []
  place := none

/-- The notes were copied, and the manifest is as given. -/
def synced (saved : List (Path × Kind)) : State String where
  container := notesTree
  saved := saved
  copied := [notesPath]

theorem staleEntries_nil {current : List (Path × Kind)} : staleEntries [] current = [] := by
  simp [staleEntries]

theorem runSync_notes_saving : runSync (start emptyTree) (projectOf notesTree)
    (notesCourse .saving) = some (synced []) := by
  simp only [runSync, start, staleEntries_nil, notesCourse]
  rfl

theorem runSync_notes : runSync (start emptyTree) (projectOf notesTree) (notesCourse .never) =
    some (synced [(notesPath, .entry)]) := by
  simp only [runSync, start, staleEntries_nil, notesCourse]
  rfl

theorem stale_notes : staleEntries [(notesPath, .entry)] (projectEntries (projectOf emptyTree)) =
    [(notesPath, .entry)] := by
  have hentries : projectEntries (projectOf emptyTree) = [] := rfl
  simp [staleEntries, hentries]

theorem sync_mirrors_iff_deleted_notes : ∃ after,
    (system String).step (synced [(notesPath, .entry)]) (.sync (projectOf emptyTree) emptyCourse) =
        some after ∧
      Mirrors (projectOf emptyTree) emptyCourse (synced [(notesPath, .entry)]) after := by
  have hrun : (system String).run (start emptyTree)
      [.sync (projectOf notesTree) (notesCourse .never)] = some (synced [(notesPath, .entry)]) :=
    (system String).run_cons_eq_some.mpr ⟨_, runSync_notes, rfl⟩
  have hsync : ((system String).step (synced [(notesPath, .entry)])
      (.sync (projectOf emptyTree) emptyCourse)).isSome = true := by
    change (runSync (synced [(notesPath, .entry)]) (projectOf emptyTree) emptyCourse).isSome = true
    simp only [runSync, synced, stale_notes, emptyCourse]
    rfl
  obtain ⟨after, hafter⟩ := Option.isSome_iff_exists.mp hsync
  refine ⟨after, hafter, ((sync_mirrors_iff hrun hafter).2 rfl).mpr ⟨?_, ?_⟩⟩
  · intro path hpath hgone hsome
    obtain rfl := List.mem_singleton.mp hpath
    refine .inl fun below hunder node hnode => ?_
    by_cases heq : notesPath = below
    · subst heq
      obtain rfl := Option.some.inj (get_notes.symm.trans hnode)
      change (notesPath, Kind.entry) ∈ staleEntries [(notesPath, .entry)] _
      rw [stale_notes]
      exact List.mem_singleton_self _
    · have hdirectory := Tree.get_of_prefix hunder heq (Option.isSome_of_mem hnode)
      cases get_notes.symm.trans hdirectory
  · intro content henv
    cases henv

/-- The notes were copied, saving the manifest failed, and the host has them no longer. -/
theorem unsaved_copy_stays : ∃ before after,
    (system String).run (start emptyTree)
        [.sync (projectOf notesTree) (notesCourse .saving)] = some before ∧
      (system String).step before (.sync (projectOf emptyTree) emptyCourse) = some after ∧
      ¬ Mirrors (projectOf emptyTree) emptyCourse before after := by
  refine ⟨synced [], synced [], ?_, ?_, fun hmirrors => ?_⟩
  · exact (system String).run_cons_eq_some.mpr ⟨_, runSync_notes_saving, rfl⟩
  · change runSync (synced []) (projectOf emptyTree) emptyCourse = _
    simp only [runSync, synced, staleEntries_nil, emptyCourse]
    rfl
  · have hgone : Gone (projectOf emptyTree) emptyCourse notesPath :=
      ⟨List.not_mem_nil, by simp [emptyCourse]⟩
    rcases hmirrors.gone notesPath (List.mem_singleton_self _) hgone with
      hnone | ⟨below, hunder, hne, hsome, -⟩
    · cases get_notes.symm.trans hnone
    · cases get_notes.symm.trans (Tree.get_of_prefix hunder hne hsome)

end Example

end CanyonOS.Sync
