import Bootscript.Proofs.FileTree.Survey
import Bootscript.Proofs.RuntimeSource

/-! The members that a source yields after a file was put in the place of another, or of a link
to one. They are the members that it yielded before if the file is not selected, or has the
bytes that the file in its place had. -/
namespace Bootscript

open Bootscript.Path (Name)

def FileTree.SameFile (t after : FileTree) (place : List Name) : Prop :=
  ∃ data mode mode', t.node? place = some (.file mode data) ∧
    after.node? place = some (.file mode' data)

namespace RuntimeSource

/-- The file at a place is one of those that a source selects. -/
def Takes (source : RuntimeSource) (s : Surroundings) (place : List Name) : Prop :=
  ∃ root items item, s.tree.locate s.working .target source.root = .ok root ∧
    source.items (m := ReaderM Surroundings) s = .ok items ∧ item ∈ items ∧
      place = root ++ item.steps

variable {source : RuntimeSource} {s : Surroundings}

theorem exists_isRoot {items : List Item}
    (found : source.items (m := ReaderM Surroundings) s = .ok items) (some : items ≠ []) :
    ∃ root, s.IsRoot source.root root ∧ items = source.select (s.tree.contents root) := by
  obtain ⟨seen, surveyed, rfl⟩ := items_eq_ok_iff.1 found
  rcases Surroundings.exists_isRoot surveyed with rfl | ⟨root, isRoot, rfl⟩
  · exact absurd rfl some
  · exact ⟨root, isRoot, rfl⟩

theorem items_of_isRoot {root : List Name} (isRoot : s.IsRoot source.root root) :
    source.items (m := ReaderM Surroundings) s = .ok (source.select (s.tree.contents root)) :=
  items_eq_ok_iff.2 ⟨_, isRoot.survey_eq, rfl⟩

theorem Holds.data_eq {item : Item} {m : Archive.Member} {root : List Name} {mode : Nat}
    {data : Bytes} (held : source.Holds s item m) (formed : s.tree.IsFormed)
    (led : s.tree.locate s.working .target source.root = .ok root)
    (file : s.tree.node? (root ++ item.steps) = some (.file mode data)) : m.data = data :=
  ((formed.read_join_iff led file).1 (Surroundings.allow_eq_ok_iff.1 held.data).2).2

section Select

variable {root : List Name} {item : Item}

/-- What is selected at a root is a file there or beneath. -/
theorem exists_file {t : FileTree} (formed : t.IsFormed)
    (member : item ∈ source.select (t.contents root)) :
    ∃ mode data, t.node? (root ++ item.steps) = some (.file mode data) := by
  unfold FileTree.contents at member
  split at member
  · rename_i mode data found
    rw [select] at member
    split at member
    · cases List.mem_singleton.1 member
      exact ⟨mode, data, by rwa [List.append_nil]⟩
    · cases member
  · simp only [select, List.mem_mergeSort, List.mem_map, List.mem_filter] at member
    obtain ⟨steps, ⟨there, _⟩, rfl⟩ := member
    obtain ⟨⟨mode, data, listed⟩, _⟩ := FileTree.mem_filesBelow.1 there
    exact ⟨mode, data, formed.node?_of_mem listed⟩
  · cases member

variable {other : List Name} {mode : Nat} {data : Bytes} (isRoot : s.IsRoot source.root root)
  (formed : s.tree.IsFormed) (blind : s.tree.IsBlind other)
include isRoot blind

/-- A root keeps its kind. -/
theorem contents_set :
    s.tree.contents root = .file ∧ (s.tree.set other (.file mode data)).contents root = .file ∨
      s.tree.contents root = .directory (s.tree.filesBelow root) ∧
        (s.tree.set other (.file mode data)).contents root =
          .directory ((s.tree.set other (.file mode data)).filesBelow root) := by
  cases isRoot with
  | file _ _ _ found =>
    obtain ⟨_, _, later⟩ := blind.exists_file_set found mode data
    exact .inl ⟨by rw [FileTree.contents, found], by rw [FileTree.contents, later]⟩
  | directory _ _ found =>
    have apart : root ≠ other := by
      rintro rfl
      exact blind.not_directory found
    refine .inr ⟨by rw [FileTree.contents, found], ?_⟩
    rw [FileTree.contents, FileTree.node?_set_of_ne _ _ apart, found]

include formed in
/-- What was selected still is, as a file is put where another was, or a link. -/
theorem mem_select_set (member : item ∈ source.select (s.tree.contents root)) :
    item ∈ source.select ((s.tree.set other (.file mode data)).contents root) := by
  rcases contents_set isRoot blind with ⟨before, after⟩ | ⟨before, after⟩
  · rwa [after, ← before]
  · rw [before] at member
    rw [after]
    simp only [select, List.mem_mergeSort, List.mem_map, List.mem_filter] at member ⊢
    obtain ⟨steps, ⟨there, wanted⟩, rfl⟩ := member
    obtain ⟨⟨_, _, listed⟩, some⟩ := FileTree.mem_filesBelow.1 there
    obtain ⟨mode', data', later⟩ := blind.exists_file_set (formed.node?_of_mem listed) mode data
    have beneath := FileTree.mem_nodes later (List.append_ne_nil_of_right_ne_nil _ some)
    exact ⟨steps, ⟨FileTree.mem_filesBelow.2 ⟨⟨mode', data', beneath⟩, some⟩, wanted⟩, rfl⟩

/-- No more is selected than before, unless a file that is selected now was put over a link. -/
theorem select_contents_set
    (same : ∀ item ∈ source.select ((s.tree.set other (.file mode data)).contents root),
      other = root ++ item.steps → s.tree.SameFile (s.tree.set other (.file mode data)) other) :
    source.select ((s.tree.set other (.file mode data)).contents root) =
      source.select (s.tree.contents root) := by
  obtain ⟨old, closed, node⟩ := blind.exists_node
  have nonempty := FileTree.ne_nil_of_node?_eq_some node closed
  have file := s.tree.node?_set_self (.file mode data) nonempty
  rcases contents_set isRoot blind with ⟨before, after⟩ | ⟨before, after⟩
  · rw [before, after]
  · rw [after] at same ⊢
    rw [before]
    simp only [select, List.mem_mergeSort, List.mem_map, List.mem_filter] at same ⊢
    rw [FileTree.filter_filesBelow_set node closed]
    rintro steps rfl wanted
    have some : steps ≠ [] := by
      rintro rfl
      cases wanted
    have listed := FileTree.mem_filesBelow.2 ⟨⟨mode, data, FileTree.mem_nodes file nonempty⟩, some⟩
    obtain ⟨data', mode', _, found, _⟩ := same _ ⟨steps, ⟨listed, wanted⟩, rfl⟩ rfl
    exact ⟨mode', data', Option.some.inj (node.symm.trans found)⟩

end Select

section Members

variable {other : List Name} {mode : Nat} {data : Bytes}
  {refusal : Access → Bytes → Option OsError} {members : List Archive.Member}
  (formed : s.tree.IsFormed) (blind : s.tree.IsBlind other)
  (kept : ∀ access path, s.refusal access path = none → refusal access path = none)
include formed blind kept

/-- A member holds what it did if its file is not the one that was put, or has its bytes. -/
theorem Holds.set {item : Item} {m : Archive.Member} {root : List Name}
    (held : source.Holds s item m) (isRoot : s.IsRoot source.root root)
    (member : item ∈ source.select (s.tree.contents root))
    (same : other = root ++ item.steps →
      s.tree.SameFile (s.tree.set other (.file mode data)) other) :
    source.Holds { s with tree := s.tree.set other (.file mode data), refusal } item m := by
  obtain ⟨_, closed, node⟩ := blind.exists_node
  obtain ⟨old, data', file⟩ := exists_file formed member
  obtain ⟨seen, read⟩ := Surroundings.allow_eq_ok_iff.1 held.data
  obtain ⟨usable, rfl⟩ := (formed.read_join_iff isRoot.led file).1 read
  have stays : ∃ mode', (s.tree.set other (.file mode data)).node? (root ++ item.steps) =
      some (.file mode' m.data) := by
    by_cases here : other = root ++ item.steps
    · obtain ⟨_, _, mode', before, after⟩ := same here
      rw [here] at before after
      cases file.symm.trans before
      exact ⟨mode', by rw [here, after]⟩
    · exact ⟨old, by rw [FileTree.node?_set_of_ne _ _ (Ne.symm here), file]⟩
  obtain ⟨_, later⟩ := stays
  have led := (isRoot.set formed blind mode data kept).led
  exact ⟨held.name, Surroundings.allow_eq_ok_iff.2
    ⟨kept _ _ seen, ((formed.set node closed _).read_join_iff led later).2 ⟨usable, rfl⟩⟩⟩

/-- A source yields the same members after a file was put in the place of another exactly if
that file is not selected, or has the bytes that the other had. -/
theorem members_set_iff (made : source.members (m := ReaderM Surroundings) s = .ok members) :
    let later : Surroundings := { s with tree := s.tree.set other (.file mode data), refusal }
    source.members (m := ReaderM Surroundings) later = .ok members ↔
      (source.Takes later other → s.tree.SameFile later.tree other) := by
  intro later
  obtain ⟨items, found, nonempty, held, distinct⟩ := members_eq_ok_iff.1 made
  obtain ⟨root, isRoot, rfl⟩ := exists_isRoot found nonempty
  have isRoot' : later.IsRoot source.root root := isRoot.set formed blind mode data kept
  have listed := items_of_isRoot isRoot'
  constructor
  · rintro made' ⟨_, _, item, led, found', member, rfl⟩
    cases isRoot'.led.symm.trans led
    cases listed.symm.trans found'
    obtain ⟨_, found', _, held', distinct'⟩ := members_eq_ok_iff.1 made'
    cases listed.symm.trans found'
    obtain ⟨m, stored, holds'⟩ := exists_of_forall₂ held' member
    obtain ⟨before, selected, holds⟩ := exists_of_forall₂ held.flip stored
    -- The member is that of a file selected before, and no other file now has its name.
    have same : before = item := by
      rw [names_of_holds held'] at distinct'
      exact List.inj_on_of_nodup_map distinct' (mem_select_set isRoot formed blind selected) member
        (holds.name.symm.trans holds'.name)
    subst same
    obtain ⟨_, closed, node⟩ := blind.exists_node
    have formed' : later.tree.IsFormed := formed.set node closed _
    obtain ⟨mode₀, _, file⟩ := exists_file formed selected
    obtain ⟨mode', _, file'⟩ := exists_file formed' member
    cases holds.data_eq formed isRoot.led file
    cases holds'.data_eq formed' isRoot'.led file'
    exact ⟨m.data, mode₀, mode', file, file'⟩
  · intro agrees
    have same : ∀ item ∈ source.select (later.tree.contents root), other = root ++ item.steps →
        s.tree.SameFile later.tree other :=
      fun item member there => agrees ⟨root, _, item, isRoot'.led, listed, member, there⟩
    have selected : source.select (later.tree.contents root) = _ :=
      select_contents_set isRoot blind same
    rw [selected] at listed same
    refine members_eq_ok_iff.2 ⟨_, listed, nonempty, ?_, distinct⟩
    refine ((List.forall₂_and_left _ _).2 ⟨fun _ => id, held⟩).imp fun item m ⟨member, first⟩ => ?_
    exact first.set formed blind kept isRoot member (same item member)

end Members

end RuntimeSource
end Bootscript
