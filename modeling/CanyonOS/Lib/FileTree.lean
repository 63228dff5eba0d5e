import Mathlib

/-!
# File trees

The directories, files and links under one root, by the names on the way to each. Everything lies
in a directory, so what is under a path is under a directory.
-/

namespace FileTree

inductive Node (Content : Type) where
  | directory
  | file (content : Content)
  | link (target : Content)
deriving DecidableEq

namespace Node

variable {Content : Type}

def isDirectory : Node Content → Bool
  | .directory => true
  | .file _ | .link _ => false

def isLink : Node Content → Bool
  | .link _ => true
  | .directory | .file _ => false

@[simp]
theorem isDirectory_iff {node : Node Content} : node.isDirectory = true ↔ node = .directory := by
  cases node <;> simp [isDirectory]

end Node

structure Tree (Name Content : Type) where
  get : List Name → Option (Node Content)
  paths : List (List Name)
  get_nil : get [] = some .directory
  mem_paths : ∀ path, path ∈ paths ↔ path ≠ [] ∧ (get path).isSome = true
  parent : ∀ path name, (get (path ++ [name])).isSome = true → get path = some .directory

namespace Tree

variable {Name Content : Type} {tree : Tree Name Content} {path other : List Name}

theorem get_of_append {names : List Name} (hnames : names ≠ [])
    (hsome : (tree.get (path ++ names)).isSome = true) : tree.get path = some .directory := by
  induction names using List.reverseRecOn with
  | nil => exact absurd rfl hnames
  | append_singleton names name ih =>
      rw [← List.append_assoc] at hsome
      have hparent := tree.parent _ _ hsome
      by_cases hempty : names = []
      · rwa [hempty, List.append_nil] at hparent
      · exact ih hempty (by rw [hparent]; rfl)

/-- What has anything under it is a directory. -/
theorem get_of_prefix {below : List Name} (hunder : path <+: below) (hne : path ≠ below)
    (hsome : (tree.get below).isSome = true) : tree.get path = some .directory := by
  obtain ⟨names, rfl⟩ := hunder
  refine get_of_append (fun hempty => hne ?_) hsome
  rw [hempty, List.append_nil]

variable [DecidableEq Name]

/-- A node where there is no directory. -/
def put (tree : Tree Name Content) (path : List Name) (node : Node Content) (hne : path ≠ [])
    (hparent : tree.get path.dropLast = some .directory)
    (hleaf : tree.get path ≠ some .directory) : Tree Name Content where
  get := Function.update tree.get path (some node)
  paths := if path ∈ tree.paths then tree.paths else tree.paths ++ [path]
  get_nil := (Function.update_of_ne hne.symm ..).trans tree.get_nil
  mem_paths other := by
    have hbefore := tree.mem_paths other
    by_cases heq : other = path
    · subst heq
      rw [Function.update_self]
      split_ifs with hmem
      · simp [hmem, hne]
      · simp [hne]
    · rw [Function.update_of_ne heq]
      split_ifs
      · exact hbefore
      · simpa [heq] using hbefore
  parent other name hsome := by
    by_cases heq : other ++ [name] = path
    · rw [← heq, List.dropLast_concat] at hparent
      refine (Function.update_of_ne (fun hself => ?_) ..).trans hparent
      simp [← heq] at hself
    · rw [Function.update_of_ne heq] at hsome
      have hdirectory := tree.parent other name hsome
      refine (Function.update_of_ne (fun hself => hleaf ?_) ..).trans hdirectory
      rwa [← hself]

section Put

variable {node : Node Content} {hne : path ≠ []}
  {hparent : tree.get path.dropLast = some .directory} {hleaf : tree.get path ≠ some .directory}

@[simp]
theorem get_put_self : (tree.put path node hne hparent hleaf).get path = some node :=
  Function.update_self ..

theorem get_put_of_ne (hother : other ≠ path) :
    (tree.put path node hne hparent hleaf).get other = tree.get other :=
  Function.update_of_ne hother ..

theorem paths_put (hnew : path ∉ tree.paths) :
    (tree.put path node hne hparent hleaf).paths = tree.paths ++ [path] :=
  if_neg hnew

end Put

/-- Nothing is in it. -/
def isLeaf (tree : Tree Name Content) (path : List Name) : Bool :=
  tree.paths.all fun other => other.dropLast ≠ path

theorem isLeaf_iff : tree.isLeaf path = true ↔
    ∀ name, tree.get (path ++ [name]) = none := by
  rw [isLeaf, List.all_eq_true]
  constructor
  · intro hall name
    by_contra hsome
    have hmem := (tree.mem_paths (path ++ [name])).mpr
      ⟨by simp, Option.isSome_iff_ne_none.mpr hsome⟩
    simpa using hall _ hmem
  · intro hnone other hmem
    obtain ⟨hne, hsome⟩ := (tree.mem_paths other).mp hmem
    rw [decide_eq_true_eq]
    intro heq
    rw [← List.dropLast_append_getLast hne, heq, hnone] at hsome
    cases hsome

/-- Nothing is under it either. -/
theorem get_of_isLeaf (hleaf : tree.isLeaf path = true) {below : List Name}
    (hunder : path <+: below) (hne : path ≠ below) : tree.get below = none := by
  obtain ⟨names, rfl⟩ := hunder
  cases names with
  | nil => simp at hne
  | cons name names =>
      by_contra hsome
      rw [← ne_eq, ← Option.isSome_iff_ne_none, List.append_cons] at hsome
      have hnone := isLeaf_iff.mp hleaf name
      cases names with
      | nil => simp [hnone] at hsome
      | cons next names =>
          rw [get_of_append (by simp) hsome] at hnone
          cases hnone

def erase (tree : Tree Name Content) (path : List Name) (hne : path ≠ [])
    (hleaf : tree.isLeaf path = true) : Tree Name Content where
  get := Function.update tree.get path none
  paths := tree.paths.filter (· ≠ path)
  get_nil := (Function.update_of_ne hne.symm ..).trans tree.get_nil
  mem_paths other := by
    have hbefore := tree.mem_paths other
    by_cases heq : other = path
    · simp [heq]
    · simpa [Function.update_of_ne heq, heq] using hbefore
  parent other name hsome := by
    by_cases heq : other ++ [name] = path
    · rw [heq, Function.update_self] at hsome
      cases hsome
    · rw [Function.update_of_ne heq] at hsome
      have hdirectory := tree.parent other name hsome
      refine (Function.update_of_ne (fun hself => ?_) ..).trans hdirectory
      rw [hself, isLeaf_iff.mp hleaf name] at hsome
      cases hsome

@[simp]
theorem get_erase_self {hne : path ≠ []} {hleaf : tree.isLeaf path = true} :
    (tree.erase path hne hleaf).get path = none :=
  Function.update_self ..

theorem get_erase_of_ne {hne : path ≠ []} {hleaf : tree.isLeaf path = true}
    (hother : other ≠ path) : (tree.erase path hne hleaf).get other = tree.get other :=
  Function.update_of_ne hother ..

/-- What is no directory is a leaf. -/
theorem isLeaf_of_get (hget : tree.get path ≠ some .directory) : tree.isLeaf path = true := by
  refine isLeaf_iff.mpr fun name => ?_
  by_contra hsome
  exact hget (tree.parent path name (Option.isSome_iff_ne_none.mpr hsome))

variable [DecidableEq Content]

/-- Directories merge and other nodes replace each other; none when one would replace the other, or
when there is no directory to write to. -/
def write (tree : Tree Name Content) (path : List Name) (node : Node Content) :
    Option (Tree Name Content) :=
  if hplace : path ≠ [] ∧ tree.get path.dropLast = some .directory then
    if hleaf : tree.get path = some .directory then if node.isDirectory then some tree else none
    else if (tree.get path).isSome ∧ node.isDirectory then none
    else some (tree.put path node hplace.1 hplace.2 hleaf)
  else none

section Write

variable {node : Node Content} {after : Tree Name Content}
  (hwrite : tree.write path node = some after)

include hwrite

theorem get_write_self : after.get path = some node := by
  unfold write at hwrite
  split_ifs at hwrite with hplace hleaf hnode hold
  · cases hwrite
    rw [hleaf, Node.isDirectory_iff.mp hnode]
  · cases hwrite
    exact get_put_self

theorem get_write_of_ne (hother : other ≠ path) : after.get other = tree.get other := by
  unfold write at hwrite
  split_ifs at hwrite with hplace hleaf hnode hold
  · cases hwrite
    rfl
  · cases hwrite
    exact get_put_of_ne hother

/-- A node is replaced by one of its kind only. -/
theorem isDirectory_of_write {old : Node Content} (hget : tree.get path = some old) :
    old.isDirectory = node.isDirectory := by
  unfold write at hwrite
  split_ifs at hwrite with hplace hleaf hnode hold
  · rw [hget, Option.some.injEq] at hleaf
    rw [hleaf, hnode]
    rfl
  · have hfile : old.isDirectory = false := by
      rw [Bool.eq_false_iff, ne_eq, Node.isDirectory_iff]
      exact fun heq => hleaf (heq ▸ hget)
    rw [hfile]
    exact (Bool.eq_false_iff.mpr fun hnode => hold ⟨by rw [hget]; rfl, hnode⟩).symm

theorem exists_of_write {old : Node Content} (hget : tree.get other = some old) :
    ∃ written, after.get other = some written ∧ written.isDirectory = old.isDirectory := by
  by_cases heq : other = path
  · subst heq
    exact ⟨node, get_write_self hwrite, (isDirectory_of_write hwrite hget).symm⟩
  · exact ⟨old, (get_write_of_ne hwrite heq).trans hget, rfl⟩

end Write

/-- The same nodes written in some order. -/
def writeAll (source : Tree Name Content) (tree : Tree Name Content) (order : List (List Name)) :
    Option (Tree Name Content) :=
  order.foldlM (fun tree path => (source.get path).bind (tree.write path)) tree

section WriteAll

variable {source after : Tree Name Content} {order : List (List Name)}

theorem get_writeAll (hwrite : writeAll source tree order = some after) :
    (∀ path ∈ order, after.get path = source.get path) ∧
      ∀ path ∉ order, after.get path = tree.get path := by
  induction order generalizing tree with
  | nil =>
      cases hwrite
      simp
  | cons first order ih =>
      rw [writeAll, List.foldlM_cons] at hwrite
      obtain ⟨middle, hfirst, hrest⟩ := Option.bind_eq_some_iff.mp hwrite
      obtain ⟨node, hnode, hfirst⟩ := Option.bind_eq_some_iff.mp hfirst
      obtain ⟨hwritten, hothers⟩ := ih hrest
      refine ⟨fun path hpath => ?_, fun path hpath => ?_⟩
      · by_cases hin : path ∈ order
        · exact hwritten path hin
        · obtain rfl : path = first := (List.mem_cons.mp hpath).resolve_right hin
          rw [hothers path hin, get_write_self hfirst, hnode]
      · rw [List.mem_cons, not_or] at hpath
        rw [hothers path hpath.2, get_write_of_ne hfirst hpath.1]

/-- Writing takes no node away and changes no node's kind. -/
theorem exists_of_writeAll (hwrite : writeAll source tree order = some after) {path : List Name}
    {old : Node Content} (hget : tree.get path = some old) :
    ∃ node, after.get path = some node ∧ node.isDirectory = old.isDirectory := by
  induction order generalizing tree old with
  | nil =>
      cases hwrite
      exact ⟨old, hget, rfl⟩
  | cons first order ih =>
      rw [writeAll, List.foldlM_cons] at hwrite
      obtain ⟨middle, hfirst, hrest⟩ := Option.bind_eq_some_iff.mp hwrite
      obtain ⟨written, -, hfirst⟩ := Option.bind_eq_some_iff.mp hfirst
      obtain ⟨node, hnode, hsame⟩ := exists_of_write hfirst hget
      obtain ⟨last, hlast, hkind⟩ := ih hrest hnode
      exact ⟨last, hlast, hkind.trans hsame⟩

end WriteAll

end Tree

end FileTree
