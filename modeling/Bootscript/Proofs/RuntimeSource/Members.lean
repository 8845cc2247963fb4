import Bootscript.Proofs.Archive.Directory
import Bootscript.Proofs.Base64
import Bootscript.Proofs.Payload
import Bootscript.Proofs.Piece
import Bootscript.Proofs.RuntimeSource.Wanted

/-! The members of an archive of sources. There is one for each wanted file, unless two of
them would have one name, and the archive does not tell in which order the tree is listed. -/
namespace Bootscript

open Bootscript.Path (Name)

theorem Payload.entries?_lines (archive : Bytes) :
    entries? (ofArchive archive).lines = Archive.read? archive := by
  have inner : ((ofArchive archive).lines.drop 1).dropLast.dropLast.flatten =
      Base64.encode archive := by
    have parts : (ofArchive archive).lines.drop 1 =
        rows (Base64.encode archive) ++ [quote] ++ [[]] := by
      simp [lines, ofArchive]
    rw [parts, List.dropLast_concat, List.dropLast_concat, flatten_rows]
  rw [entries?, if_pos (isBlock_lines archive), inner, Base64.decode?_encode, Option.bind_some]

namespace FileTree

def dataAt (t : FileTree) (place : List Name) : Bytes :=
  match t.node? place with
  | some (.file _ data) => data
  | _ => []

theorem dataAt_of_node? {t : FileTree} {place : List Name} {mode : Nat} {data : Bytes}
    (file : t.node? place = some (.file mode data)) : t.dataAt place = data := by
  rw [dataAt, file]

end FileTree

namespace RuntimeSource

section Collect

variable {source : RuntimeSource} {s : Surroundings} {items : List Item}
  {before members : List Archive.Member}

/-- Where files have one name, the second of them is refused. -/
theorem exists_collect_eq_error (held : List.Forall₂ (source.Holds s) items members)
    (distinct : (before.map (·.name)).Nodup)
    (clash : ¬(before.map (·.name) ++ items.map (·.name)).Nodup) :
    ∃ front item back, items = front ++ item :: back ∧
      (item.name ∈ before.map (·.name) ∨ item.name ∈ front.map (·.name)) ∧
      source.collect (m := ReaderM Surroundings) items before s =
        .error (.duplicateMember item.name) := by
  -- A file that is stored moves its name from the items to `before`, where it still counts.
  induction held generalizing before with
  | nil => exact absurd (by simpa using distinct) clash
  | @cons item m items members first further ih =>
    rw [collect_of_holds first]
    by_cases listed : item.name ∈ before.map (·.name)
    · exact ⟨[], item, items, rfl, .inl listed, if_pos listed⟩
    · rw [if_neg listed]
      rw [← first.name] at listed
      have apart : ((m :: before).map (·.name)).Nodup := List.nodup_cons.2 ⟨listed, distinct⟩
      have again : ¬((m :: before).map (·.name) ++ items.map (·.name)).Nodup := fun nodup =>
        clash ((List.perm_middle.nodup_iff).2 (by rwa [List.map_cons, first.name] at nodup))
      obtain ⟨front, other, back, rfl, named, collected⟩ := ih apart again
      refine ⟨item :: front, other, back, rfl, ?_, collected⟩
      rw [List.map_cons, List.mem_cons, first.name] at named
      rw [List.map_cons, List.mem_cons]
      tauto

end Collect

def member (source : RuntimeSource) (file : List Name × Bytes) : Archive.Member :=
  ⟨source.memberName file.1, file.2⟩

def Clash (source : RuntimeSource) (files : List (List Name × Bytes)) (name : Text) : Prop :=
  ∃ first ∈ files, ∃ second ∈ files, first ≠ second ∧
    source.memberName first.1 = name ∧ source.memberName second.1 = name

/-- What becomes of files. If they have names of their own, they can all be read back from
the lines of the payload, in the order of their bytes. -/
inductive Outcome (source : RuntimeSource) (pack : List Archive.Member → Bytes)
    (files : List (List Name × Bytes)) : Except Failure Payload → Prop
  | missing (none : files = []) : Outcome source pack files (.error (.noSources source.root))
  | clash {name} (shared : source.Clash files name) :
    Outcome source pack files (.error (.duplicateMember name))
  | stored {payload} (some : files ≠ []) (apart : ∀ name, ¬source.Clash files name)
    (ascending : (files.map fun file => (source.memberName file.1).encode).Pairwise (· < ·))
    (whole : payload = .ofArchive (pack (files.map source.member)))
    (read : Archive.Fits (files.map source.member) (pack (files.map source.member)) →
      Payload.entries? payload.lines = .some (files.map fun file => (source.member file).entry)) :
    Outcome source pack files (.ok payload)

namespace Outcome

variable {source : RuntimeSource} {pack : List Archive.Member → Bytes}
  {files : List (List Name × Bytes)} {result : Except Failure Payload}
  (outcome : source.Outcome pack files result)
include outcome

theorem eq_duplicateMember_iff :
    (∃ name, result = .error (.duplicateMember name)) ↔ ∃ name, source.Clash files name := by
  cases outcome with
  | missing none =>
    refine ⟨nofun, ?_⟩
    rintro ⟨name, first, member, _⟩
    rw [none] at member
    cases member
  | clash shared => exact ⟨fun _ => ⟨_, shared⟩, fun _ => ⟨_, rfl⟩⟩
  | stored _ apart => exact ⟨nofun, fun ⟨name, shared⟩ => absurd shared (apart name)⟩

theorem exists_ok (some : files ≠ []) (apart : ∀ name, ¬source.Clash files name) :
    ∃ payload, result = .ok payload := by
  cases outcome with
  | missing none => exact absurd none some
  | clash shared => exact absurd shared (apart _)
  | stored => exact ⟨_, rfl⟩

end Outcome

section Selection

variable {source : RuntimeSource} {s : Surroundings} {place : List Name} {items : List Item}

def filesOf (s : Surroundings) (place : List Name) (items : List Item) :
    List (List Name × Bytes) :=
  items.map fun item => (item.steps, s.tree.dataAt (place ++ item.steps))

variable (selection : source.IsSelection s place items)
include selection

theorem IsSelection.nodup_filesOf : (filesOf s place items).Nodup := by
  have steps : (filesOf s place items).map Prod.fst = items.map (·.steps) := by
    rw [filesOf, List.map_map]
    rfl
  exact (steps ▸ selection.distinct).of_map

theorem IsSelection.mem_filesOf {steps : List Name} {data : Bytes} :
    (steps, data) ∈ filesOf s place items ↔ source.IsWanted s place steps data := by
  rw [filesOf, List.mem_map]
  constructor
  · rintro ⟨item, member, same⟩
    obtain ⟨_, data, wanted⟩ := (selection.mem_iff item).1 member
    obtain ⟨mode, file⟩ := wanted.file
    rw [FileTree.dataAt_of_node? file] at same
    cases same
    exact wanted
  · intro wanted
    obtain ⟨mode, file⟩ := wanted.file
    refine ⟨⟨source.memberName steps, steps⟩, (selection.mem_iff _).2 ⟨rfl, data, wanted⟩, ?_⟩
    rw [FileTree.dataAt_of_node? file]

theorem IsSelection.map_member :
    (filesOf s place items).map source.member =
      items.map fun item => ⟨item.name, s.tree.dataAt (place ++ item.steps)⟩ := by
  rw [filesOf, List.map_map]
  refine List.map_congr_left fun item member => ?_
  rw [((selection.mem_iff item).1 member).1]
  rfl

theorem IsSelection.map_memberName :
    (filesOf s place items).map (fun file => source.memberName file.1) = items.map (·.name) := by
  have names := congrArg (List.map (·.name)) selection.map_member
  rwa [List.map_map, List.map_map] at names

theorem IsSelection.not_clash (distinct : (items.map (·.name)).Nodup) (name : Text) :
    ¬source.Clash (filesOf s place items) name := by
  rintro ⟨first, member, second, member', other, named, named'⟩
  rw [← selection.map_memberName] at distinct
  exact other (List.inj_on_of_nodup_map distinct member member' (named.trans named'.symm))

theorem IsSelection.clash {front back : List Item} {item : Item}
    (parts : items = front ++ item :: back) (named : item.name ∈ front.map (·.name)) :
    source.Clash (filesOf s place items) item.name := by
  obtain ⟨other, listed, same⟩ := List.mem_map.1 named
  have among : other ∈ items ∧ item ∈ items := by
    rw [parts]
    exact ⟨List.mem_append_left _ listed, List.mem_append_right _ (List.mem_cons_self ..)⟩
  have apart : other.steps ≠ item.steps := by
    have distinct := selection.distinct
    rw [parts, List.map_append] at distinct
    exact (List.nodup_append.1 distinct).2.2 _ (List.mem_map_of_mem listed) _
      (List.mem_map_of_mem (List.mem_cons_self ..))
  refine ⟨_, List.mem_map_of_mem among.1, _, List.mem_map_of_mem among.2, ?_, ?_, ?_⟩
  · exact fun alike => apart (congrArg Prod.fst alike)
  · exact (((selection.mem_iff other).1 among.1).1.symm).trans same
  · exact ((selection.mem_iff item).1 among.2).1.symm

/-- In their order, names that differ have bytes in ascending order. -/
theorem IsSelection.ascending (distinct : (items.map (·.name)).Nodup) :
    ((filesOf s place items).map fun file => (source.memberName file.1).encode).Pairwise
      (· < ·) := by
  have names := congrArg (List.map Text.encode) selection.map_memberName
  rw [List.map_map, List.map_map] at names
  rw [show ((filesOf s place items).map fun file => (source.memberName file.1).encode) = _ from
    names, List.pairwise_map]
  refine (selection.sorted.and (List.pairwise_map.1 distinct)).imp fun {a b} ⟨le, other⟩ => ?_
  rw [Item.le, if_neg other] at le
  exact Text.encode_lt le other

variable (formed : s.tree.IsFormed) (willing : s.IsWilling)
  (led : s.tree.locate s.working .target source.root = .ok place)
  (usable : ∀ entry ∈ s.tree.below place, FileTree.IsUsable (Path.join source.root entry.1))
include formed willing led usable

theorem IsSelection.read {item : Item} (member : item ∈ items) :
    s.read (item.path source) = .ok (s.tree.dataAt (place ++ item.steps)) := by
  obtain ⟨_, data, wanted⟩ := (selection.mem_iff item).1 member
  obtain ⟨mode, file⟩ := wanted.file
  refine Surroundings.allow_eq_ok_iff.2 ⟨willing _ _, ?_⟩
  refine (formed.read_join_iff led file).2 ⟨?_, FileTree.dataAt_of_node? file⟩
  by_cases top : item.steps = []
  · rw [top]
    exact (FileTree.locate_eq_ok_iff.1 led).1
  · have listed := FileTree.mem_nodes file (List.append_ne_nil_of_right_ne_nil _ top)
    exact usable _ (FileTree.mem_below.2 ⟨listed, top⟩)

theorem IsSelection.holds :
    List.Forall₂ (source.Holds s) items ((filesOf s place items).map source.member) := by
  rw [selection.map_member, List.forall₂_map_right_iff, List.forall₂_same]
  exact fun item member => ⟨rfl, selection.read formed willing led usable member⟩

theorem IsSelection.outcome (faithful : Archive.IsFaithful s.pack)
    (found : source.items (m := ReaderM Surroundings) s = .ok items) :
    source.Outcome s.pack (filesOf s place items) (source.archive (m := ReaderM Surroundings) s) := by
  have held := selection.holds formed willing led usable
  rw [archive_eq_map, members_of_items found]
  split
  · rename_i none
    exact .missing (List.map_eq_nil_iff.2 none)
  · rename_i some
    by_cases distinct : (items.map (·.name)).Nodup
    · have apart : (((filesOf s place items).map source.member).map (·.name)).Nodup := by
        rwa [names_of_holds held]
      have none : (([] : List Archive.Member).map (·.name)).Nodup := List.nodup_nil
      rw [(collect_eq_ok_iff none).2 ⟨_, held, rfl, by simpa using apart⟩]
      refine .stored (mt List.map_eq_nil_iff.1 some) (selection.not_clash distinct)
        (selection.ascending distinct) rfl fun fits => ?_
      rw [Payload.entries?_lines, List.reverse_nil, List.nil_append, faithful _ apart fits,
        List.map_map]
      rfl
    · obtain ⟨front, item, back, parts, named, failed⟩ :=
        @exists_collect_eq_error _ _ _ [] _ held List.nodup_nil distinct
      rw [failed]
      exact .clash (selection.clash parts (named.resolve_left List.not_mem_nil))

end Selection

section Names

variable {source : RuntimeSource}

theorem memberName_map_encode (names : List Text) : source.memberName (names.map Text.encode) =
    source.package ++ names.flatMap ('/' :: ·) :=
  congrArg (source.package ++ ·) (shown_map_encode names)

/-- Names without slashes are told apart in a path. -/
theorem eq_of_flatMap_slash {names others : List Text} (clear : ∀ name ∈ names, '/' ∉ name)
    (clear' : ∀ name ∈ others, '/' ∉ name)
    (same : names.flatMap ('/' :: ·) = others.flatMap ('/' :: ·)) : names = others := by
  have parted {pieces : List Text} (clear : ∀ name ∈ pieces, '/' ∉ name) :
      split '/' (pieces.flatMap ('/' :: ·)) = [] :: pieces := by
    have whole := Text.intercalate_cons ['/'] [] pieces
    rw [List.nil_append] at whole
    rw [show pieces.flatMap ('/' :: ·) = _ from whole.symm]
    exact split_intercalate (List.forall_mem_cons.2 ⟨List.not_mem_nil, clear⟩)
      (List.cons_ne_nil _ _)
  have split := congrArg (split '/') same
  rw [parted clear, parted clear'] at split
  exact List.tail_eq_of_cons_eq split

variable {s : Surroundings} {place : List Name} (formed : s.tree.IsFormed)
include formed

theorem IsWanted.noSlash {names : List Text} {data : Bytes}
    (wanted : source.IsWanted s place (names.map Text.encode) data) :
    ∀ name ∈ names, '/' ∉ name := by
  intro name member slashed
  obtain ⟨mode, file⟩ := wanted.file
  have isName := formed.isName file (List.mem_append_right _ (List.mem_map_of_mem member))
  exact isName.noSlash ((Text.mem_encode_ascii (by decide)).2 slashed)

/-- Files whose names are UTF-8 have names of their own in the archive. -/
theorem not_clash_of_encoded {files : List (List Name × Bytes)}
    (wanted : ∀ steps data, (steps, data) ∈ files → source.IsWanted s place steps data)
    (encoded : ∀ file ∈ files, ∃ names : List Text, file.1 = names.map Text.encode)
    (name : Text) : ¬source.Clash files name := by
  rintro ⟨⟨steps, data⟩, member, ⟨steps', data'⟩, member', other, named, named'⟩
  obtain ⟨names, rfl⟩ : ∃ names : List Text, steps = _ := encoded _ member
  obtain ⟨names', rfl⟩ : ∃ names : List Text, steps' = _ := encoded _ member'
  have first := wanted _ _ member
  have second := wanted _ _ member'
  have same := named.trans named'.symm
  rw [memberName_map_encode, memberName_map_encode] at same
  cases eq_of_flatMap_slash (first.noSlash formed) (second.noSlash formed)
    (List.append_cancel_left same)
  obtain ⟨_, file⟩ := first.file
  obtain ⟨_, file'⟩ := second.file
  cases file.symm.trans file'
  exact other rfl

end Names

section Same

variable {source : RuntimeSource} {s : Surroundings} {place : List Name} {tree : FileTree}
  (formed : s.tree.IsFormed) (willing : s.IsWilling) (formed' : tree.IsFormed)
  (same : ∀ entry, entry ∈ tree.nodes ↔ entry ∈ s.tree.nodes)
  (led : s.tree.locate s.working .target source.root = .ok place)
  (usable : ∀ entry ∈ s.tree.below place, FileTree.IsUsable (Path.join source.root entry.1))
include formed willing formed' same led usable

/-- The order in which a tree is listed does not matter. -/
theorem archive_of_same : source.archive (m := ReaderM Surroundings) { s with tree } =
    source.archive (m := ReaderM Surroundings) s := by
  have nodes := formed.node?_eq_of_same formed' same
  have more : tree.Extends s.tree := fun place _ found => (nodes place).trans found
  have less : s.tree.Extends tree := fun place _ found => (nodes place).symm.trans found
  have led' : tree.locate s.working .target source.root = .ok place :=
    FileTree.locate_of_extends more led
  have usable' : ∀ entry ∈ tree.below place, FileTree.IsUsable (Path.join source.root entry.1) := by
    rintro ⟨steps, node⟩ member
    obtain ⟨listed, beneath⟩ := FileTree.mem_below.1 member
    exact usable (steps, node) (FileTree.mem_below.2 ⟨(same _).1 listed, beneath⟩)
  have wanted (steps : List Name) (data : Bytes) :
      source.IsWanted { s with tree } place steps data ↔ source.IsWanted s place steps data :=
    ⟨fun wanted => wanted.of_extends less, fun wanted => wanted.of_extends more⟩
  obtain ⟨items, found, selection⟩ := exists_isSelection formed willing led usable
  obtain ⟨items', found', selection'⟩ :=
    exists_isSelection (s := { s with tree }) formed' willing led' usable'
  have selected : source.IsSelection s place items' :=
    ⟨selection'.sorted, selection'.distinct, by simpa only [wanted] using selection'.mem_iff⟩
  -- Only a selection without ties is the same whichever order the nodes come in.
  obtain rfl := selection.unique selected
  refine archive_congr rfl (found'.trans found.symm) fun items found' item member => ?_
  cases found.symm.trans found'
  rw [selection.read formed willing led usable member]
  have read := selection'.read formed' willing led' usable' member
  rwa [FileTree.dataAt, nodes, ← FileTree.dataAt] at read

end Same

/-- An archive of a root that is there holds the wanted files and nothing else. -/
theorem archive_wanted {source : RuntimeSource} {s : Surroundings} {place : List Name}
    (formed : s.tree.IsFormed) (willing : s.IsWilling) (faithful : Archive.IsFaithful s.pack)
    (led : s.tree.locate s.working .target source.root = .ok place)
    (usable : ∀ entry ∈ s.tree.below place, FileTree.IsUsable (Path.join source.root entry.1)) :
    let archived := source.archive (m := ReaderM Surroundings) s
    ∃ files : List (List Name × Bytes), files.Nodup ∧
      (∀ steps data, (steps, data) ∈ files ↔ source.IsWanted s place steps data) ∧
      source.Outcome s.pack files archived ∧
      ((∃ name, archived = .error (.duplicateMember name)) ↔ ∃ name, source.Clash files name) ∧
      (files ≠ [] → (∀ file ∈ files, ∃ names : List Text, file.1 = names.map Text.encode) →
        ∃ payload, archived = .ok payload) ∧
      (∀ names : List Text, source.memberName (names.map Text.encode) =
        source.package ++ names.flatMap ('/' :: ·)) ∧
      ∀ tree : FileTree, tree.IsFormed → (∀ entry, entry ∈ tree.nodes ↔ entry ∈ s.tree.nodes) →
        source.archive (m := ReaderM Surroundings) { s with tree } = archived := by
  intro archived
  obtain ⟨items, found, selection⟩ := exists_isSelection formed willing led usable
  have outcome := selection.outcome formed willing led usable faithful found
  have listed (steps : List Name) (data : Bytes) :
      (steps, data) ∈ filesOf s place items ↔ source.IsWanted s place steps data :=
    selection.mem_filesOf
  refine ⟨filesOf s place items, selection.nodup_filesOf, listed, outcome,
    outcome.eq_duplicateMember_iff, fun some encoded => ?_, memberName_map_encode,
    fun tree formed' same => archive_of_same formed willing formed' same led usable⟩
  exact outcome.exists_ok some
    (not_clash_of_encoded formed (fun steps data => (listed steps data).1) encoded)

/-- The root is a link, beside the working directory, to a package in which there are another
link and a hidden file. -/
theorem archive_wanted_linked :
    let path (names : List String) : List Name := names.map fun name => Text.encode name.toList
    let text := Text.encode "X = 1\n".toList
    let nodes : List (List Name × Node) := [(path ["bin"], .directory), (path ["lib"], .directory),
      (path ["rt"], .link (Text.encode "lib".toList)), (path ["lib", "sub"], .directory),
      (path ["lib", "sub", "é.py"], .file 0o644 text), (path ["lib", ".py"], .file 0o644 text),
      (path ["lib", "main.py"], .link (Text.encode "sub/é.py".toList))]
    let s : Surroundings := { tree := ⟨nodes⟩, working := path ["bin"] }
    let source : RuntimeSource := ⟨Text.encode "../rt".toList, "pysh".toList, ["py".toList]⟩
    (∃ files : List (List Name × Bytes), (path ["sub", "é.py"], text) ∈ files ∧
      (∀ data, (path ["main.py"], data) ∉ files) ∧
        source.Outcome s.pack files (source.archive (m := ReaderM Surroundings) s)) ∧
      source.archive (m := ReaderM Surroundings) { s with tree := ⟨nodes.reverse⟩ } =
        .ok (.ofArchive (Archive.write [⟨"pysh/sub/é.py".toList, text⟩])) := by
  intro path text nodes s source
  have formed : s.tree.IsFormed := by decide +kernel
  have led : s.tree.locate s.working .target source.root = .ok (path ["lib"]) :=
    eq_ok_of_toOption (by decide +kernel)
  have archived : source.archive (m := ReaderM Surroundings) s =
      .ok (.ofArchive (Archive.write [⟨"pysh/sub/é.py".toList, text⟩])) :=
    eq_ok_of_toOption (by decide +kernel)
  obtain ⟨files, _, wanted, outcome, _, _, _, same⟩ :=
    archive_wanted formed (fun _ _ => rfl) Archive.isFaithful_write led (by decide +kernel)
  refine ⟨⟨files, (wanted _ _).2 ⟨⟨0o644, by decide +kernel⟩, ?_, nofun⟩, ?_, outcome⟩, ?_⟩
  · exact ⟨_, rfl, "py".toList, List.mem_singleton_self _, by decide, Text.encode "é".toList,
      by decide, by decide⟩
  · intro data member
    obtain ⟨_, file⟩ := ((wanted _ _).1 member).file
    have link : s.tree.node? (path ["lib", "main.py"]) =
        some (.link (Text.encode "sub/é.py".toList)) := by decide +kernel
    cases link.symm.trans file
  · rw [same ⟨nodes.reverse⟩ (by decide +kernel) fun _ => List.mem_reverse, archived]

end RuntimeSource
end Bootscript
