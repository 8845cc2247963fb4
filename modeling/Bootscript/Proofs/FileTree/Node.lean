import Bootscript.FileTree.Edit
import Mathlib.Data.List.Basic

/-! Nodes of a tree after one of them is set. Setting a node where nothing was is undone by
erasing it, and takes nothing away from the tree. -/
namespace Bootscript.FileTree

open Bootscript.Path (Name)

section Nodes

variable {place other : List Name} {nodes : List (List Name × Node)} (node : Node)

theorem lookup_cons_of_ne (apart : other ≠ place) :
    ((place, node) :: nodes).lookup other = nodes.lookup other := by
  rw [List.lookup_cons, beq_eq_false_iff_ne.2 apart]

theorem lookup_setNode_self : (setNode place node nodes).lookup place = some node := by
  induction nodes with
  | nil => simp [setNode]
  | cons head nodes ih =>
    obtain ⟨first, old⟩ := head
    by_cases same : first = place
    · simp [setNode, same]
    · simp [setNode, same, lookup_cons_of_ne old (Ne.symm same), ih]

theorem lookup_setNode_of_ne (apart : other ≠ place) :
    (setNode place node nodes).lookup other = nodes.lookup other := by
  induction nodes with
  | nil => simp [setNode, lookup_cons_of_ne node apart]
  | cons head nodes ih =>
    obtain ⟨first, old⟩ := head
    by_cases same : first = place
    · subst same
      simp [setNode, lookup_cons_of_ne _ apart]
    · simp [setNode, List.lookup_cons, same, ih]

theorem setNode_setNode (later : Node) :
    setNode place later (setNode place node nodes) = setNode place later nodes := by
  induction nodes with
  | nil => simp [setNode]
  | cons head nodes ih =>
    obtain ⟨first, old⟩ := head
    by_cases same : first = place <;> simp [setNode, same, ih]

theorem filter_setNode_of_lookup_eq_none (vacant : nodes.lookup place = none) :
    (setNode place node nodes).filter (·.1 ≠ place) = nodes := by
  induction nodes with
  | nil => simp [setNode]
  | cons head nodes ih =>
    obtain ⟨first, old⟩ := head
    by_cases same : first = place
    · simp [same] at vacant
    · rw [lookup_cons_of_ne old (Ne.symm same)] at vacant
      simpa [setNode, same] using ih vacant

theorem map_fst_setNode_of_lookup_isSome (present : (nodes.lookup place).isSome) :
    (setNode place node nodes).map Prod.fst = nodes.map Prod.fst := by
  induction nodes with
  | nil => cases present
  | cons head nodes ih =>
    obtain ⟨first, old⟩ := head
    by_cases same : first = place
    · simp [setNode, same]
    · rw [lookup_cons_of_ne old (Ne.symm same)] at present
      simp [setNode, same, ih present]

end Nodes

variable (t : FileTree) {place other : List Name} (node : Node)

variable {t} in
/-- The root is there and stays a directory. -/
theorem ne_nil_of_node?_eq_some {node : Node} (found : t.node? place = some node)
    (other : node ≠ .directory) : place ≠ [] := by
  rintro rfl
  exact other (Option.some.inj found.symm)

variable {t} in
theorem ne_nil_of_node?_eq_none (vacant : t.node? place = none) : place ≠ [] := by
  rintro rfl
  cases vacant

theorem node?_of_ne_nil (nonempty : place ≠ []) : t.node? place = t.nodes.lookup place :=
  if_neg nonempty

@[simp] theorem node?_set_self (nonempty : place ≠ []) :
    (t.set place node).node? place = some node := by
  rw [set, if_neg nonempty, node?_of_ne_nil _ nonempty]
  exact lookup_setNode_self node

/-- Setting a node changes no other one. -/
theorem node?_set_of_ne (apart : other ≠ place) :
    (t.set place node).node? other = t.node? other := by
  unfold set
  split
  · rfl
  · simp [node?, lookup_setNode_of_ne node apart]

@[simp] theorem set_set (later : Node) :
    (t.set place node).set place later = t.set place later := by
  by_cases top : place = []
  · simp [set, top]
  · simp [set, top, setNode_setNode]

/-- What was made is gone without a trace. -/
theorem erase_set_of_vacant (vacant : t.node? place = none) :
    (t.set place node).erase place = t := by
  have nonempty := ne_nil_of_node?_eq_none vacant
  rw [node?_of_ne_nil _ nonempty] at vacant
  rw [set, if_neg nonempty, erase, filter_setNode_of_lookup_eq_none node vacant]

@[simp] theorem update_set (nonempty : place ≠ []) (change : Node → Node) :
    (t.set place node).update place change = t.set place (change node) := by
  simp [update, nonempty]

theorem places_set (present : (t.node? place).isSome) :
    (t.set place node).nodes.map Prod.fst = t.nodes.map Prod.fst := by
  unfold set
  split
  · rfl
  · rename_i nonempty
    rw [node?_of_ne_nil _ nonempty] at present
    exact map_fst_setNode_of_lookup_isSome node present

def Extends (later t : FileTree) : Prop :=
  ∀ place node, t.node? place = some node → later.node? place = some node

theorem extends_set_of_vacant (vacant : t.node? place = none) : (t.set place node).Extends t := by
  intro other old found
  have apart : other ≠ place := by
    rintro rfl
    rw [vacant] at found
    cases found
  rw [node?_set_of_ne _ _ apart, found]

end Bootscript.FileTree
