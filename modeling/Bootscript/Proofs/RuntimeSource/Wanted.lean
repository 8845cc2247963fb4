import Bootscript.Proofs.FileTree.Survey
import Bootscript.Proofs.Order
import Bootscript.Proofs.RuntimeSource

/-! The wanted files of a tree. What they are is told by the tree and the extensions alone;
what is selected at the root is each of them, once, in the order of its members. -/
namespace Bootscript

open Bootscript.Path (Name)

namespace Path

section Extension

variable {stem extension : Bytes}

theorem extension?_append (clear : dot ∉ extension) :
    extension? (stem ++ dot :: extension) =
      if stem ≠ [] ∧ stem ++ dot :: extension ≠ [dot, dot] then some extension else none := by
  have tail : (stem ++ dot :: extension).reverse.takeWhile (· ≠ dot) = extension.reverse := by
    rw [List.reverse_append, List.reverse_cons, List.append_assoc, List.singleton_append]
    exact takeWhile_piece (mt List.mem_reverse.1 clear) _
  have longer : extension.reverse.length + 1 < (stem ++ dot :: extension).length ↔ stem ≠ [] := by
    rw [← List.length_pos_iff, List.length_reverse, List.length_append, List.length_cons]
    omega
  simp only [extension?, tail, longer, List.reverse_reverse]

/-- An extension follows the last dot of a name, which is not its first character. -/
theorem extension?_eq_some_iff {name : Name} :
    extension? name = some extension ↔ name ≠ [dot, dot] ∧ dot ∉ extension ∧
      ∃ stem ≠ [], name = stem ++ dot :: extension := by
  constructor
  · intro found
    by_cases dotted : dot ∈ name
    · obtain ⟨tail, front, whole, clear⟩ :=
        List.eq_append_cons_of_mem (List.mem_reverse.2 dotted)
      have parts : name = front.reverse ++ dot :: tail.reverse := by
        rw [← name.reverse_reverse, whole]
        simp
      rw [← List.mem_reverse] at clear
      rw [parts, extension?_append clear] at found
      obtain ⟨⟨some, other⟩, same⟩ := Option.ite_none_right_eq_some.1 found
      cases same
      exact ⟨parts ▸ other, clear, _, some, parts⟩
    · have all : name.reverse.takeWhile (· ≠ dot) = name.reverse :=
        List.takeWhile_eq_self_iff.2 fun b member =>
          decide_eq_true (ne_of_mem_of_not_mem (List.mem_reverse.1 member) dotted)
      have short : ¬(name.reverse.length + 1 < name.length ∧ name ≠ [dot, dot]) := by
        rw [List.length_reverse]
        omega
      rw [extension?] at found
      simp only [all, if_neg short] at found
      cases found
  · rintro ⟨other, clear, stem, some, rfl⟩
    rw [extension?_append clear, if_pos ⟨some, other⟩]

end Extension

theorem fileName?_of_steps {path : Bytes} {init : List Name} {name : Name}
    (named : steps path = init ++ [name]) (entry : FileTree.IsEntryName name) :
    fileName? path = some name := by
  have last : (moves (steps path)).getLast? = some name := by
    rw [named, moves_append, moves_cons entry.notHere]
    exact List.getLast?_concat
  rw [fileName?, ← moves, last]
  exact if_neg entry.notParent

end Path

/-- A path that leads to a file, and not over a link there, ends in the name of the file. -/
theorem FileTree.fileName?_of_locate {t : FileTree} {working place : List Name} {root : Bytes}
    (direct : t.locate working .itself root = .ok place)
    (other : t.node? place ≠ some .directory) :
    ∃ name, Path.fileName? root = some name ∧ place.getLast? = some name ∧
      name ≠ [Path.dot, Path.dot] := by
  obtain ⟨usable, arrived⟩ := locate_eq_ok_iff.1 direct
  obtain ⟨init, name, parent, named, entry, rfl, _⟩ :=
    arrived.exists_entry isOpen_root fun isOpen => other isOpen.node?_eq
  obtain ⟨_, parts, _⟩ := Path.exists_steps_of_route usable.nonempty named
  exact ⟨name, Path.fileName?_of_steps parts entry, List.getLast?_concat, entry.notParent⟩

namespace RuntimeSource

/-- Sorting leaves no choice, even among files whose members have one name. -/
theorem Item.isLinear : IsLinear Item.le where
  total a b := by
    rw [Item.le, Item.le]
    by_cases same : a.name = b.name
    · rw [if_pos same, if_pos same.symm]
      exact Bytes.isLinear.lexicographic.total _ _
    · rw [if_neg same, if_neg (Ne.symm same)]
      exact Text.isLinear.total _ _
  trans a b c := by
    rw [Item.le, Item.le, Item.le]
    by_cases same : a.name = b.name
    · rw [if_pos same, same]
      by_cases next : b.name = c.name
      · rw [if_pos next, if_pos next]
        exact Bytes.isLinear.lexicographic.trans _ _ _
      · rw [if_neg next, if_neg next]
        exact fun _ second => second
    · rw [if_neg same]
      by_cases next : b.name = c.name
      · rw [if_pos next, ← next, if_neg same]
        exact fun first _ => first
      · rw [if_neg next]
        intro first second
        have other : a.name ≠ c.name := fun round =>
          same (Text.isLinear.antisymm _ _ first (round ▸ second))
        rw [if_neg other]
        exact Text.isLinear.trans _ _ _ first second
  antisymm a b := by
    rw [Item.le, Item.le]
    by_cases same : a.name = b.name
    · rw [if_pos same, if_pos same.symm]
      intro first second
      have steps := Bytes.isLinear.lexicographic.antisymm _ _ first second
      exact congrArg₂ Item.mk same steps
    · rw [if_neg same, if_neg (Ne.symm same)]
      exact fun first second => absurd (Text.isLinear.antisymm _ _ first second) same

/-- A name that ends in a dot and one of the extensions, with something before it. What
follows a further dot is all that counts. -/
def HasExtension (source : RuntimeSource) (name : Name) : Prop :=
  ∃ extension ∈ source.extensions, '.' ∉ extension ∧
    ∃ stem ≠ [], name = stem ++ Path.dot :: extension.encode

theorem wants_iff {source : RuntimeSource} {name : Name} (other : name ≠ [Path.dot, Path.dot]) :
    source.wants name ↔ source.HasExtension name := by
  have dotted {extension : Text} : Path.dot ∈ extension.encode ↔ '.' ∈ extension :=
    Text.mem_encode_ascii (by decide)
  unfold wants
  constructor
  · intro wanted
    split at wanted
    · cases wanted
    · rename_i extension found
      obtain ⟨bytes, opened, decoded⟩ := Option.bind_eq_some_iff.1 found
      cases Text.decode?_eq_some_iff.1 decoded
      obtain ⟨_, clear, parts⟩ := Path.extension?_eq_some_iff.1 opened
      exact ⟨extension, List.contains_iff_mem.1 wanted, mt dotted.2 clear, parts⟩
  · rintro ⟨extension, listed, clear, parts⟩
    have opened := Path.extension?_eq_some_iff.2 ⟨other, mt dotted.1 clear, parts⟩
    rw [opened, Option.bind_some, Text.decode?_encode]
    exact List.contains_iff_mem.2 listed

/-- A file at the root or beneath it, and its bytes. Its name has one of the extensions, and
it is no link, nor behind one but for the root itself. -/
structure IsWanted (source : RuntimeSource) (s : Surroundings) (place steps : List Name)
    (data : Bytes) : Prop where
  file : ∃ mode, s.tree.node? (place ++ steps) = some (.file mode data)
  named : ∃ name, (place ++ steps).getLast? = some name ∧ source.HasExtension name
  direct : steps = [] → s.tree.locate s.working .itself source.root = .ok place

/-- A wanted file stays one in a tree with more in it. -/
theorem IsWanted.of_extends {source : RuntimeSource} {s : Surroundings} {place steps : List Name}
    {data : Bytes} {tree : FileTree} (wanted : source.IsWanted s place steps data)
    (more : tree.Extends s.tree) : source.IsWanted { s with tree } place steps data where
  file := wanted.file.imp fun _ => more _ _
  named := wanted.named
  direct none := FileTree.locate_of_extends more (wanted.direct none)

structure IsSelection (source : RuntimeSource) (s : Surroundings) (place : List Name)
    (items : List Item) : Prop where
  sorted : items.Pairwise fun a b => a.le b
  distinct : (items.map (·.steps)).Nodup
  mem_iff : ∀ item, item ∈ items ↔
    item.name = source.memberName item.steps ∧ ∃ data, source.IsWanted s place item.steps data

theorem IsSelection.unique {source : RuntimeSource} {s : Surroundings} {place : List Name}
    {items others : List Item} (first : source.IsSelection s place items)
    (second : source.IsSelection s place others) : items = others := by
  apply Item.isLinear.eq_of_perm first.sorted second.sorted
  refine (List.perm_ext_iff_of_nodup first.distinct.of_map second.distinct.of_map).2 fun item => ?_
  rw [first.mem_iff, second.mem_iff]

section Select

variable {source : RuntimeSource} {s : Surroundings} {place : List Name}
  (formed : s.tree.IsFormed)

theorem pairwise_select (source : RuntimeSource) (found : Survey) :
    (source.select found).Pairwise fun a b => a.le b := by
  cases found with
  | file =>
    rw [select]
    split
    · exact List.pairwise_singleton _ _
    · exact .nil
  | directory files => exact List.pairwise_mergeSort Item.isLinear.trans Item.isLinear.total _
  | other => exact .nil

include formed

theorem exists_isWanted_iff {steps : List Name} (beneath : steps ≠ []) :
    (∃ data, source.IsWanted s place steps data) ↔
      steps ∈ s.tree.filesBelow place ∧ steps.getLast?.any source.wants := by
  have last : (place ++ steps).getLast? = steps.getLast? :=
    List.getLast?_append_of_ne_nil _ beneath
  rw [FileTree.mem_filesBelow]
  constructor
  · rintro ⟨data, ⟨mode, file⟩, ⟨name, named, has⟩, _⟩
    have isName := formed.isName file (List.mem_of_getLast? named)
    rw [last] at named
    refine ⟨⟨⟨mode, data, FileTree.mem_nodes file ?_⟩, beneath⟩, ?_⟩
    · exact List.append_ne_nil_of_right_ne_nil _ beneath
    · rw [named]
      exact (wants_iff isName.notParent).2 has
  · rintro ⟨⟨⟨mode, data, listed⟩, _⟩, wanted⟩
    have file := formed.node?_of_mem listed
    obtain ⟨name, named, wants⟩ := (Option.any_eq_true _ _).1 wanted
    rw [← last] at named
    have isName := formed.isName file (List.mem_of_getLast? named)
    exact ⟨data, ⟨mode, file⟩, ⟨name, named, (wants_iff isName.notParent).1 wants⟩,
      fun none => absurd none beneath⟩

section File

variable {mode : Nat} {data : Bytes} (file : s.tree.node? place = some (.file mode data))
include file

/-- Nothing is beneath a file. -/
theorem IsWanted.eq_nil_of_file {steps : List Name} {data : Bytes}
    (wanted : source.IsWanted s place steps data) : steps = [] := by
  by_contra beneath
  obtain ⟨mode, further⟩ := wanted.file
  cases (formed.isOpen_of_append further beneath).node?_eq.symm.trans file

theorem isSelection_of_file
    (direct : s.tree.locate s.working .itself source.root = .ok place) :
    source.IsSelection s place (source.select .file) := by
  obtain ⟨name, named, last, notParent⟩ :=
    FileTree.fileName?_of_locate direct (by rw [file]; nofun)
  have whole : place ++ [] = place := List.append_nil place
  have wanted : (∃ data, source.IsWanted s place [] data) ↔ source.wants name := by
    rw [wants_iff notParent]
    constructor
    · rintro ⟨_, _, ⟨other, there, has⟩, _⟩
      rw [whole] at there
      cases last.symm.trans there
      exact has
    · intro has
      exact ⟨data, ⟨mode, whole.symm ▸ file⟩, ⟨name, whole.symm ▸ last, has⟩, fun _ => direct⟩
  have selected : source.select .file = if source.wants name then [⟨source.package, []⟩] else [] := by
    rw [select, named]
    rfl
  refine ⟨pairwise_select _ _, ?_, fun item => ?_⟩
  · rw [selected]
    split
    · exact List.nodup_singleton _
    · exact List.nodup_nil
  · rw [selected]
    constructor
    · intro member
      split at member
      · rename_i has
        cases List.mem_singleton.1 member
        exact ⟨(List.append_nil _).symm, wanted.2 has⟩
      · cases member
    · rintro ⟨named, data, found⟩
      have none := found.eq_nil_of_file formed file
      rw [none] at named found
      rw [if_pos (wanted.1 ⟨data, found⟩), List.mem_singleton]
      exact congrArg₂ Item.mk (named.trans (List.append_nil _)) none

/-- A file behind a link at the root is none of them. -/
theorem isSelection_of_link
    (indirect : s.tree.locate s.working .itself source.root ≠ .ok place) :
    source.IsSelection s place [] := by
  refine ⟨.nil, List.nodup_nil, fun item => ⟨nofun, ?_⟩⟩
  rintro ⟨_, data, found⟩
  exact absurd (found.direct (found.eq_nil_of_file formed file)) indirect

end File

theorem isSelection_of_directory (directory : s.tree.node? place = some .directory) :
    source.IsSelection s place (source.select (.directory (s.tree.filesBelow place))) := by
  refine ⟨pairwise_select _ _, ?_, fun item => ?_⟩
  · exact (steps_select_directory _).nodup_iff.2 ((formed.nodup_filesBelow place).filter _)
  · have beneath : (∃ data, source.IsWanted s place item.steps data) → item.steps ≠ [] := by
      rintro ⟨data, ⟨mode, file⟩, _⟩ none
      rw [none, List.append_nil, directory] at file
      cases file
    constructor
    · intro member
      obtain ⟨steps, listed, rfl⟩ := List.mem_map.1 (List.mem_mergeSort.1 member)
      obtain ⟨there, wanted⟩ := List.mem_filter.1 listed
      exact ⟨rfl, (exists_isWanted_iff formed (FileTree.mem_filesBelow.1 there).2).2
        ⟨there, wanted⟩⟩
    · rintro ⟨named, wanted⟩
      have listed := (exists_isWanted_iff formed (beneath wanted)).1 wanted
      refine List.mem_mergeSort.2 (List.mem_map.2 ⟨item.steps, List.mem_filter.2 listed, ?_⟩)
      rw [← named]

/-- At a root that is there, just the wanted files are found. -/
theorem exists_isSelection (willing : s.IsWilling)
    (led : s.tree.locate s.working .target source.root = .ok place)
    (usable : ∀ entry ∈ s.tree.below place, FileTree.IsUsable (Path.join source.root entry.1)) :
    ∃ items, source.items (m := ReaderM Surroundings) s = .ok items ∧
      source.IsSelection s place items := by
  have short : ∀ path ∈ (s.tree.directoriesBelow place).map (Path.join source.root),
      path.length ≤ FileTree.maxPath := by
    intro path member
    obtain ⟨steps, listed, rfl⟩ := List.mem_map.1 member
    exact (usable _ (FileTree.mem_below.2 (FileTree.mem_directoriesBelow.1 listed))).short
  rcases Surroundings.isRoot_or_link willing led short with
    isRoot | ⟨surveyed, ⟨mode, data, file⟩, indirect⟩
  · refine ⟨_, items_eq_ok_iff.2 ⟨_, isRoot.survey_eq, rfl⟩, ?_⟩
    cases isRoot with
    | file _ direct _ file =>
      rw [FileTree.contents, file]
      exact isSelection_of_file formed file direct
    | directory _ _ directory =>
      rw [FileTree.contents, directory]
      exact isSelection_of_directory formed directory
  · exact ⟨_, items_eq_ok_iff.2 ⟨_, surveyed, rfl⟩, isSelection_of_link formed file indirect⟩

end Select
end RuntimeSource
end Bootscript
