import Bootscript.Host
import Bootscript.Proofs.FileTree.Frame
import Bootscript.Proofs.Generator

/-! What is found at the root of a tree of sources, and what of it changes when a file is put
in the place of another, or of a link to one. -/
namespace Bootscript

open Bootscript.Path (Name)

namespace FileTree

section Below

variable {t : FileTree} {place steps : List Name} {node old : Node}

theorem mem_below :
    (steps, node) ∈ t.below place ↔ (place ++ steps, node) ∈ t.nodes ∧ steps ≠ [] := by
  simp only [below, List.mem_filterMap, Option.ite_none_right_eq_some, Option.some.injEq,
    Prod.mk.injEq, List.isPrefixOf_iff_prefix]
  constructor
  · rintro ⟨⟨other, _⟩, member, ⟨⟨steps, rfl⟩, apart⟩, rfl, rfl⟩
    rw [List.drop_left]
    exact ⟨member, fun none => apart (by rw [none, List.append_nil])⟩
  · rintro ⟨member, some⟩
    exact ⟨_, member, ⟨⟨steps, rfl⟩, by simpa using some⟩, List.drop_left, rfl⟩

theorem mem_filesBelow : steps ∈ t.filesBelow place ↔
    (∃ mode data, (place ++ steps, .file mode data) ∈ t.nodes) ∧ steps ≠ [] := by
  simp only [filesBelow, List.mem_filterMap]
  constructor
  · rintro ⟨⟨found, node⟩, member, named⟩
    cases node with
    | file mode data =>
      cases named
      obtain ⟨member, some⟩ := mem_below.1 member
      exact ⟨⟨mode, data, member⟩, some⟩
    | directory => cases named
    | link => cases named
  · rintro ⟨⟨mode, data, member⟩, some⟩
    exact ⟨⟨steps, .file mode data⟩, mem_below.2 ⟨member, some⟩, rfl⟩

theorem mem_directoriesBelow : steps ∈ t.directoriesBelow place ↔
    (place ++ steps, .directory) ∈ t.nodes ∧ steps ≠ [] := by
  simp only [directoriesBelow, List.mem_mergeSort, List.mem_filterMap,
    Option.ite_none_right_eq_some, Option.some.injEq]
  constructor
  · rintro ⟨⟨found, _⟩, member, rfl, rfl⟩
    exact mem_below.1 member
  · intro listed
    exact ⟨(steps, .directory), mem_below.2 listed, rfl, rfl⟩

theorem IsFormed.nodup_filesBelow (formed : t.IsFormed) (place : List Name) :
    (t.filesBelow place).Nodup := by
  have apart := List.pairwise_map.1 formed.distinct
  have below : (t.below place).Pairwise fun a b => a.1 ≠ b.1 := by
    refine List.pairwise_filterMap.2 (apart.imp fun {a b} other => ?_)
    simp only [Option.ite_none_right_eq_some, Option.some.injEq, List.isPrefixOf_iff_prefix]
    rintro _ ⟨⟨⟨steps, whole⟩, _⟩, rfl⟩ _ ⟨⟨⟨steps', whole'⟩, _⟩, rfl⟩
    rw [← whole, ← whole'] at other ⊢
    simpa using other
  refine List.pairwise_filterMap.2 (below.imp fun {a b} other => ?_)
  obtain ⟨steps, node⟩ := a
  obtain ⟨steps', node'⟩ := b
  cases node <;> cases node' <;> simp_all

theorem filterMap_setNode {α : Type} {nodes : List (List Name × Node)}
    {f : List Name × Node → Option α} (found : nodes.lookup place = some old)
    (same : f (place, old) = f (place, node)) :
    (setNode place node nodes).filterMap f = nodes.filterMap f := by
  induction nodes with
  | nil => cases found
  | cons head nodes ih =>
    obtain ⟨other, first⟩ := head
    by_cases here : other = place
    · subst here
      rw [List.lookup_cons_self] at found
      cases found
      rw [setNode, if_pos rfl, List.filterMap_cons, List.filterMap_cons, same]
    · rw [lookup_cons_of_ne first (Ne.symm here)] at found
      rw [setNode, if_neg here, List.filterMap_cons, List.filterMap_cons, ih found]

section Set

variable {other : List Name} (found : t.node? other = some old) (closed : old ≠ .directory)
include found closed

theorem filterMap_below_set {α : Type} {f : List Name × Node → Option α}
    (same : ∀ steps, other = place ++ steps → f (steps, old) = f (steps, node)) :
    ((t.set other node).below place).filterMap f = (t.below place).filterMap f := by
  have nonempty := ne_nil_of_node?_eq_some found closed
  rw [node?_of_ne_nil _ nonempty] at found
  rw [below, below, List.filterMap_filterMap, List.filterMap_filterMap, set, if_neg nonempty]
  apply filterMap_setNode found
  by_cases beneath : place.isPrefixOf other ∧ place ≠ other
  · obtain ⟨steps, rfl⟩ := List.isPrefixOf_iff_prefix.1 beneath.1
    simp only [if_pos beneath, Option.bind_some, List.drop_left, same steps rfl]
  · simp only [if_neg beneath, Option.bind_none]

theorem directoriesBelow_set (file : node ≠ .directory) :
    (t.set other node).directoriesBelow place = t.directoriesBelow place := by
  rw [directoriesBelow, filterMap_below_set found closed]
  · rfl
  · intro steps _
    simp only [if_neg closed, if_neg file]

theorem filter_filesBelow_set {p : List Name → Bool} {mode : Nat} {data : Bytes}
    (same : ∀ steps, other = place ++ steps → p steps → ∃ mode data, old = .file mode data) :
    ((t.set other (.file mode data)).filesBelow place).filter p = (t.filesBelow place).filter p := by
  rw [filesBelow, List.filter_filterMap, filterMap_below_set found closed, ← List.filter_filterMap]
  · rfl
  · intro steps beneath
    by_cases wanted : p steps
    · obtain ⟨_, _, rfl⟩ := same steps beneath wanted
      rfl
    · cases old <;> simp [Option.filter, wanted]

end Set

end Below

theorem Arrives.isOpen_or_file {t : FileTree} {links : Nat} {here place steps : List Name}
    (arrived : t.Arrives .target links here steps place) (isOpen : t.IsOpen here) :
    t.IsOpen place ∨ ∃ mode data, t.node? place = some (.file mode data) := by
  induction arrived with
  | stay => exact .inl isOpen
  | here _ ih => exact ih isOpen
  | parent _ ih => exact ih isOpen.parent
  | enter _ found _ ih => exact ih (isOpen.child found)
  | file _ found => exact .inr ⟨_, _, found⟩
  | link _ _ itself => cases itself
  | follow _ _ _ _ ih => exact ih (isOpen.start _)

def contents (t : FileTree) (place : List Name) : Survey :=
  match t.node? place with
  | some (.file ..) => .file
  | some .directory => .directory (t.filesBelow place)
  | _ => .other

end FileTree

namespace Surroundings

def IsWilling (s : Surroundings) : Prop := ∀ access path, s.refusal access path = none

theorem obstacle?_eq_none_iff {s : Surroundings} {path : Bytes} : s.obstacle? path = none ↔
    path.length ≤ FileTree.maxPath ∧ s.refusal .content path = none := by
  unfold obstacle?
  split
  · rename_i long
    exact ⟨nofun, fun short => absurd short.1 (Nat.not_le.2 long)⟩
  · rename_i short
    rw [Option.map_eq_none_iff]
    exact (and_iff_right (Nat.not_lt.1 short)).symm

/-- A root that can be surveyed: a file, which the last step of its path leads to by itself,
or a directory, which can be listed by its path as can those beneath it. -/
inductive IsRoot (s : Surroundings) (root : Bytes) (place : List Name) : Prop
  | file {mode data} (seen : s.refusal .status root = none)
    (entry : s.tree.locate s.working .itself root = .ok place)
    (led : s.tree.locate s.working .target root = .ok place)
    (found : s.tree.node? place = some (.file mode data))
  | directory (seen : s.refusal .status root = none)
    (led : s.tree.locate s.working .target root = .ok place)
    (found : s.tree.node? place = some .directory)
    (listed : ∀ path ∈ ([] :: s.tree.directoriesBelow place).map (Path.join root),
      s.obstacle? path = none)

namespace IsRoot

variable {s : Surroundings} {place : List Name} {root : Bytes} (isRoot : s.IsRoot root place)
include isRoot

theorem led : s.tree.locate s.working .target root = .ok place := by
  cases isRoot with
  | file _ _ led => exact led
  | directory _ led => exact led

theorem survey_eq : s.survey root = .ok (s.tree.contents place) := by
  cases isRoot with
  | file seen entry led found =>
    simp only [survey, allow, seen, surveyAt, FileTree.contents, FileTree.stat_of_locate entry found,
      led, ok_mapError, ok_bind, found]
    rfl
  | directory seen led found listed =>
    obtain ⟨usable, arrived⟩ := FileTree.locate_eq_ok_iff.1 led
    obtain ⟨entry, first, _⟩ := arrived.itself
    have located : s.tree.locate s.working .itself root = .ok entry :=
      FileTree.locate_eq_ok_iff.2 ⟨usable, first⟩
    have clear := List.findSome?_eq_none_iff.2 listed
    simp only [survey, allow, seen, surveyAt, FileTree.contents, FileTree.stat, located, led,
      ok_mapError, ok_bind, found, clear]
    cases (s.tree.node? entry).getD .directory <;> rfl

/-- A root stays one when a file is put in the place of another, or of a link to one, as long
as the machine refuses nothing that it did not. -/
theorem set (formed : s.tree.IsFormed) {other : List Name} (blind : s.tree.IsBlind other)
    (mode : Nat) (data : Bytes) {refusal : Access → Bytes → Option OsError}
    (kept : ∀ access path, s.refusal access path = none → refusal access path = none) :
    IsRoot { s with tree := s.tree.set other (.file mode data), refusal } root place := by
  obtain ⟨old, closed, node⟩ := blind.exists_node
  cases isRoot with
  | file seen entry led found =>
    obtain ⟨_, _, file⟩ := blind.exists_file_set found mode data
    have directory : s.tree.node? place ≠ some .directory := by rw [found]; nofun
    exact .file (kept _ _ seen) (FileTree.locate_set_of_file blind entry directory file)
      (FileTree.locate_set_of_file blind entry directory file) file
  | directory seen led found listed =>
    have isOpen := formed.isOpen found
    have file : Node.file mode data ≠ .directory := nofun
    refine .directory (kept _ _ seen) (FileTree.locate_set_of_isOpen blind led isOpen)
      (isOpen.set blind.not_directory).node?_eq ?_
    simp only [FileTree.directoriesBelow_set node closed file]
    intro path member
    have clear := obstacle?_eq_none_iff.1 (listed path member)
    exact obstacle?_eq_none_iff.2 (clear.imp_right (kept _ _))

end IsRoot

section Found

variable {s : Surroundings} {place : List Name} {root : Bytes} {found : Survey}

theorem surveyAt_eq_ok (done : s.surveyAt root place = .ok found) :
    found = s.tree.contents place ∧ (s.tree.node? place = some .directory →
      ∀ path ∈ ([] :: s.tree.directoriesBelow place).map (Path.join root),
        s.obstacle? path = none) := by
  unfold surveyAt at done
  rw [FileTree.contents]
  split at done
  · rename_i file
    cases done
    rw [file]
    exact ⟨rfl, nofun⟩
  · rename_i directory
    split at done
    · cases done
    · rename_i clear
      cases done
      rw [directory]
      exact ⟨rfl, fun _ => List.findSome?_eq_none_iff.1 clear⟩
  · rename_i noFile noDirectory
    cases done
    cases node : s.tree.node? place with
    | none => exact ⟨rfl, nofun⟩
    | some there =>
      cases there with
      | file mode data => exact (noFile _ _ node).elim
      | directory => exact (noDirectory node).elim
      | link => exact ⟨rfl, nofun⟩

/-- Where no link is seen at the path, the file that it leads to stands there itself. -/
theorem IsRoot.of_file {mode : Nat} {data : Bytes} {seen : Node}
    (led : s.tree.locate s.working .target root = .ok place)
    (file : s.tree.node? place = some (.file mode data)) (allowed : s.refusal .status root = none)
    (looked : s.tree.stat s.working .itself root = .ok seen)
    (other : ∀ target, seen ≠ .link target) : s.IsRoot root place := by
  obtain ⟨usable, arrived⟩ := FileTree.locate_eq_ok_iff.1 led
  obtain ⟨entry, first, last⟩ := arrived.itself
  have located : s.tree.locate s.working .itself root = .ok entry :=
    FileTree.locate_eq_ok_iff.2 ⟨usable, first⟩
  rcases last with rfl | ⟨target, link⟩
  · exact .file allowed located led file
  · exact absurd (Except.ok.inj (looked.symm.trans (FileTree.stat_of_locate located link)))
      (other target)

/-- What is found is nothing, or what there is at the place of a root. -/
theorem exists_isRoot (surveyed : s.survey root = .ok found) :
    found = .other ∨ ∃ place, s.IsRoot root place ∧ found = s.tree.contents place := by
  obtain ⟨seen, looked, surveyed⟩ := exists_of_bind_eq_ok surveyed
  obtain ⟨place, led, surveyed⟩ := exists_of_bind_eq_ok surveyed
  obtain ⟨_, inside, settled⟩ := exists_of_bind_eq_ok surveyed
  obtain ⟨allowed, looked⟩ := allow_eq_ok_iff.1 (Generator.eq_ok_of_mapError looked)
  replace led := Generator.eq_ok_of_mapError led
  obtain ⟨rfl, listed⟩ := surveyAt_eq_ok inside
  cases node : s.tree.node? place with
  | none =>
    rw [FileTree.contents, node] at settled
    cases seen <;> cases settled <;> exact .inl rfl
  | some there =>
    cases there with
    | link target =>
      rw [FileTree.contents, node] at settled
      cases seen <;> cases settled <;> exact .inl rfl
    | directory =>
      have same : found = s.tree.contents place := by
        rw [FileTree.contents, node] at settled ⊢
        cases seen <;> cases settled <;> rfl
      exact .inr ⟨place, .directory allowed led node (listed node), same⟩
    | file mode data =>
      have same : (∃ target, seen = .link target) ∧ found = .other ∨
          (∀ target, seen ≠ .link target) ∧ found = s.tree.contents place := by
        rw [FileTree.contents, node] at settled ⊢
        cases seen <;> cases settled <;> simp
      rcases same with ⟨_, rfl⟩ | ⟨other, rfl⟩
      · exact .inl rfl
      · exact .inr ⟨place, .of_file led node allowed looked other, rfl⟩

/-- A root that is there can be surveyed, unless it is a link to a file, or too long a path
leads to a directory beneath it. -/
theorem isRoot_or_link (willing : s.IsWilling)
    (led : s.tree.locate s.working .target root = .ok place)
    (short : ∀ path ∈ (s.tree.directoriesBelow place).map (Path.join root),
      path.length ≤ FileTree.maxPath) :
    s.IsRoot root place ∨ s.survey root = .ok .other ∧
      (∃ mode data, s.tree.node? place = some (.file mode data)) ∧
        s.tree.locate s.working .itself root ≠ .ok place := by
  obtain ⟨usable, arrived⟩ := FileTree.locate_eq_ok_iff.1 led
  obtain isOpen | ⟨mode, data, file⟩ := arrived.isOpen_or_file FileTree.isOpen_root
  · refine .inl (.directory (willing _ _) led isOpen.node?_eq fun path member => ?_)
    rw [obstacle?_eq_none_iff]
    rcases List.mem_cons.1 member with rfl | member
    · exact ⟨usable.short, willing _ _⟩
    · exact ⟨short path member, willing _ _⟩
  · obtain ⟨entry, first, last⟩ := arrived.itself
    have located : s.tree.locate s.working .itself root = .ok entry :=
      FileTree.locate_eq_ok_iff.2 ⟨usable, first⟩
    rcases last with rfl | ⟨target, link⟩
    · exact .inl (.file (willing _ _) located led file)
    · refine .inr ⟨?_, ⟨mode, data, file⟩, fun direct => ?_⟩
      · simp only [survey, allow, willing _ _, surveyAt, FileTree.stat_of_locate located link, led,
          ok_mapError, ok_bind, file]
        rfl
      · cases located.symm.trans direct
        cases link.symm.trans file

end Found

end Surroundings
end Bootscript
