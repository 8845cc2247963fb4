import Bootscript.Proofs.Generator
import Bootscript.Proofs.Utf8
import Bootscript.Settings
import Mathlib.Data.List.Forall2
import Mathlib.Data.List.Nodup

/-! The archive of a runtime and the program that imports from it. Both take the name of the
module from the same settings: the archive as the name of a directory, the program as the
dotted name of a package. -/
namespace Bootscript

open Bootscript.Path (Name)

namespace Python

/-- Where the package of a dotted name is looked for. -/
def importPath (package : Text) : Text := package.map fun c => if c = '.' then '/' else c

theorem importPath_eq_self_iff (package : Text) : importPath package = package ↔ '.' ∉ package := by
  conv => lhs; rhs; rw [← List.map_id package]
  rw [importPath, List.map_inj_left]
  constructor
  · intro same member
    exact absurd (same '.' member) (by decide)
  · intro clear c member
    exact if_neg (ne_of_mem_of_not_mem member clear)

end Python

namespace RuntimeSource

def shown (steps : List Name) : Text := steps.flatMap fun name => '/' :: Text.decodeLossy name

theorem shown_map_encode (names : List Text) :
    shown (names.map Text.encode) = names.flatMap ('/' :: ·) := by
  simp only [shown, List.flatMap_map, Text.decodeLossy, Utf8.decode_encode, List.map_map,
    Function.comp_def, Option.getD_some, List.map_id']

variable (source : RuntimeSource) (s : Surroundings)

section Items

variable {source s}

theorem items_eq_ok_iff {items : List Item} :
    source.items (m := ReaderM Surroundings) s = .ok items ↔
      ∃ found, s.survey source.root = .ok found ∧ items = source.select found := by
  have same : Host.survey (m := ReaderM Surroundings) source.root s =
    s.survey source.root := rfl
  simp only [RuntimeSource.items, Surroundings.bind_apply, same]
  cases s.survey source.root with
  | error => exact ⟨nofun, nofun⟩
  | ok found =>
    constructor
    · intro selected
      cases selected
      exact ⟨found, rfl, rfl⟩
    · rintro ⟨_, same, rfl⟩
      cases same
      rfl

theorem steps_select_directory (files : List (List Name)) :
    ((source.select (.directory files)).map (·.steps)).Perm
      (files.filter fun steps => steps.getLast?.any source.wants) := by
  have sorted := (List.mergeSort_perm ((files.filter fun steps =>
    steps.getLast?.any source.wants).map fun steps => (⟨source.memberName steps, steps⟩ : Item))
      Item.le).map (·.steps)
  rwa [List.map_map, Function.comp_def, List.map_id'] at sorted

theorem name_of_mem_select {files : List (List Name)} {item : Item}
    (member : item ∈ source.select (.directory files)) :
    item.name = source.package ++ shown item.steps := by
  simp only [select, List.mem_mergeSort, List.mem_map] at member
  obtain ⟨steps, _, rfl⟩ := member
  rfl

end Items

theorem exists_of_forall₂ {α β : Type} {R : α → β → Prop} {as : List α} {bs : List β}
    (held : List.Forall₂ R as bs) {a : α} (member : a ∈ as) : ∃ b ∈ bs, R a b := by
  induction held with
  | nil => cases member
  | cons first _ ih =>
    rcases List.mem_cons.1 member with rfl | later
    · exact ⟨_, List.mem_cons_self .., first⟩
    · exact (ih later).imp fun _ => And.imp_left (List.mem_cons_of_mem _)

structure Holds (item : Item) (m : Archive.Member) : Prop where
  name : m.name = item.name
  data : s.read (item.path source) = .ok m.data

section Members

variable {source s} {items : List Item} {before members : List Archive.Member}

theorem collect_of_holds {item : Item} {m : Archive.Member} (held : source.Holds s item m) :
    source.collect (m := ReaderM Surroundings) (item :: items) before s =
      if item.name ∈ before.map (·.name) then .error (.duplicateMember item.name)
      else source.collect (m := ReaderM Surroundings) items (m :: before) s := by
  have read : Host.read (m := ReaderM Surroundings) (item.path source) s = .ok m.data := held.data
  have taken : before.any (·.name = item.name) ↔ item.name ∈ before.map (·.name) := by
    simp only [List.any_eq_true, decide_eq_true_eq, List.mem_map]
  have whole : (⟨item.name, m.data⟩ : Archive.Member) = m := by rw [← held.name]
  rw [collect, Surroundings.bind_apply, read]
  simp only [taken, whole]
  split <;> rfl

theorem collect_cons_eq_ok_iff {item : Item} :
    source.collect (m := ReaderM Surroundings) (item :: items) before s = .ok members ↔
      ∃ m, source.Holds s item m ∧ m.name ∉ before.map (·.name) ∧
        source.collect (m := ReaderM Surroundings) items (m :: before) s = .ok members := by
  constructor
  · intro collected
    cases read : s.read (item.path source) with
    | error cause =>
      have failed : Host.read (m := ReaderM Surroundings) (item.path source) s = .error cause := read
      rw [collect, Surroundings.bind_apply, failed] at collected
      cases collected
    | ok data =>
      have held : source.Holds s item ⟨item.name, data⟩ := ⟨rfl, read⟩
      rw [collect_of_holds held] at collected
      split at collected
      · cases collected
      · rename_i fresh
        exact ⟨_, held, fresh, collected⟩
  · rintro ⟨m, held, fresh, collected⟩
    rw [collect_of_holds held, if_neg (held.name ▸ fresh), collected]

/-- Files are collected in order, if all can be read and none has the name of another. -/
theorem collect_eq_ok_iff (distinct : (before.map (·.name)).Nodup) :
    source.collect (m := ReaderM Surroundings) items before s = .ok members ↔
      ∃ added, List.Forall₂ (source.Holds s) items added ∧ members = before.reverse ++ added ∧
        (members.map (·.name)).Nodup := by
  induction items generalizing before with
  | nil =>
    have done : source.collect (m := ReaderM Surroundings) [] before s = .ok before.reverse := rfl
    rw [done]
    constructor
    · intro same
      cases same
      exact ⟨[], .nil, (List.append_nil _).symm, by simpa using distinct⟩
    · rintro ⟨added, none, rfl, _⟩
      cases none
      rw [List.append_nil]
  | cons item items ih =>
    have later {m : Archive.Member} (fresh : m.name ∉ before.map (·.name)) :=
      @ih (m :: before) (List.nodup_cons.2 ⟨fresh, distinct⟩)
    rw [collect_cons_eq_ok_iff]
    constructor
    · rintro ⟨m, held, fresh, collected⟩
      obtain ⟨added, further, rfl, distinct⟩ := (later fresh).1 collected
      exact ⟨m :: added, .cons held further, by simp, distinct⟩
    · rintro ⟨_, whole, rfl, apart⟩
      cases whole with
      | @cons _ m _ added held further =>
        have fresh : m.name ∉ before.map (·.name) := fun listed => by
          rw [List.map_append, List.map_reverse, List.map_cons] at apart
          exact (List.nodup_append'.1 apart).2.2 (List.mem_reverse.2 listed) (List.mem_cons_self ..)
        exact ⟨m, held, fresh, (later fresh).2 ⟨added, further, by simp, apart⟩⟩

theorem members_of_items (found : source.items (m := ReaderM Surroundings) s = .ok items) :
    source.members (m := ReaderM Surroundings) s =
      if items = [] then .error (.noSources source.root)
      else source.collect (m := ReaderM Surroundings) items [] s := by
  simp only [RuntimeSource.members, Surroundings.bind_apply, found]
  cases items with
  | nil => rfl
  | cons item items => rw [if_neg (List.cons_ne_nil item items)]

theorem members_eq_ok_iff :
    source.members (m := ReaderM Surroundings) s = .ok members ↔ ∃ items,
      source.items (m := ReaderM Surroundings) s = .ok items ∧ items ≠ [] ∧
        List.Forall₂ (source.Holds s) items members ∧ (members.map (·.name)).Nodup := by
  have none : (([] : List Archive.Member).map (·.name)).Nodup := List.nodup_nil
  constructor
  · intro made
    cases found : source.items (m := ReaderM Surroundings) s with
    | error =>
      simp only [RuntimeSource.members, Surroundings.bind_apply, found] at made
      cases made
    | ok items =>
      rw [members_of_items found] at made
      split at made
      · cases made
      · rename_i some
        obtain ⟨_, held, rfl, distinct⟩ := (collect_eq_ok_iff none).1 made
        exact ⟨_, rfl, some, held, distinct⟩
  · rintro ⟨items, found, some, held, distinct⟩
    rw [members_of_items found, if_neg some,
      (collect_eq_ok_iff none).2 ⟨members, held, rfl, distinct⟩]
    rfl

/-- An archive is what the members are packed to. -/
theorem archive_eq_map : source.archive (m := ReaderM Surroundings) s =
    (source.members (m := ReaderM Surroundings) s).map fun members =>
      .ofArchive (s.pack members) := by
  have pack (members : List Archive.Member) :
      Host.pack (m := ReaderM Surroundings) members s = s.pack members := rfl
  simp only [archive, Surroundings.bind_apply]
  cases made : source.members (m := ReaderM Surroundings) s <;>
    simp only [Surroundings.bind_apply, pack] <;> rfl

theorem archive_eq_ok_iff {payload : Payload} :
    source.archive (m := ReaderM Surroundings) s = .ok payload ↔ ∃ members,
      source.members (m := ReaderM Surroundings) s = .ok members ∧
        .ofArchive (s.pack members) = payload := by
  rw [archive_eq_map, map_eq_ok_iff]

theorem names_of_holds (held : List.Forall₂ (source.Holds s) items members) :
    members.map (·.name) = items.map (·.name) := by
  induction held with
  | nil => rfl
  | cons first _ ih => rw [List.map_cons, List.map_cons, first.name, ih]

end Members

end RuntimeSource

namespace Settings

theorem runtimeModule_of_launcher {settings : Settings} {l : Launcher}
    (accepted : settings.launcher = .ok l) : l.runtimeModule = settings.runtimeModule := by
  unfold launcher Launcher.make at accepted
  split at accepted
  · cases accepted
  · cases accepted
    rfl

theorem import_mem_programLines (l : Launcher) :
    "    import ".toList ++ l.runtimeModule ∈ l.programLines true :=
  List.mem_of_getElem? (i := 8) rfl

/-- The wanted files beneath the root are stored under the name of the module that the
program imports, as it is written. This is where they are looked for exactly if the name has
no dots. -/
theorem name_eq_importPath_iff {settings : Settings} {l : Launcher}
    (accepted : settings.launcher = .ok l) {s : Surroundings} {files : List (List Name)}
    (surveyed : s.survey settings.source.root = .ok (.directory files)) :
    ∃ items, settings.source.items (m := ReaderM Surroundings) s = .ok items ∧
      (items.map (·.steps)).Perm
        (files.filter fun steps => steps.getLast?.any settings.source.wants) ∧
      (∀ item ∈ items, item.name = l.runtimeModule ++ RuntimeSource.shown item.steps ∧
        (item.name = Python.importPath l.runtimeModule ++ RuntimeSource.shown item.steps ↔
          '.' ∉ l.runtimeModule)) ∧
      "    import ".toList ++ l.runtimeModule ∈ l.programLines true ∧
      ∀ payload, settings.source.archive (m := ReaderM Surroundings) s = .ok payload →
        ∃ members, payload = .ofArchive (s.pack members) ∧
          members.map (·.name) = items.map (·.name) := by
  have found := RuntimeSource.items_eq_ok_iff.2 ⟨_, surveyed, rfl⟩
  have package : settings.source.package = l.runtimeModule :=
    (runtimeModule_of_launcher accepted).symm
  refine ⟨_, found, RuntimeSource.steps_select_directory files, fun item member => ?_,
    import_mem_programLines l, fun payload archived => ?_⟩
  · have named := RuntimeSource.name_of_mem_select member
    rw [package] at named
    refine ⟨named, ?_⟩
    rw [named, List.append_left_inj, eq_comm, Python.importPath_eq_self_iff]
  · obtain ⟨members, made, rfl⟩ := RuntimeSource.archive_eq_ok_iff.1 archived
    obtain ⟨_, same, _, held, _⟩ := RuntimeSource.members_eq_ok_iff.1 made
    cases found.symm.trans same
    exact ⟨members, rfl, RuntimeSource.names_of_holds held⟩

/-- A package in a package, and a file that is not wanted. -/
theorem name_eq_importPath_standard :
    let path (names : List String) : List Name := names.map fun name => Text.encode name.toList
    let tree : FileTree := ⟨[(path ["pysh"], .directory), (path ["pysh", "sub"], .directory),
      (path ["pysh", "sub", "é.py"], .file 0o644 []), (path ["pysh", "notes"], .file 0o644 [])]⟩
    (Settings.source {}).items (m := ReaderM Surroundings) { tree } =
        .ok [⟨"pysh/sub/é.py".toList, path ["sub", "é.py"]⟩] ∧
      "pysh/sub/é.py".toList = Python.importPath "pysh".toList ++ "/sub/é.py".toList := by
  intro path tree
  have accepted : Settings.launcher {} = .ok .standard := rfl
  have surveyed : ({ tree } : Surroundings).survey (Settings.source {}).root =
      .ok (.directory [path ["sub", "é.py"], path ["notes"]]) :=
    eq_ok_of_toOption (by decide +kernel)
  have here : (Settings.source {}).items (m := ReaderM Surroundings) { tree } =
      .ok [⟨"pysh/sub/é.py".toList, path ["sub", "é.py"]⟩] :=
    eq_ok_of_toOption (by decide +kernel)
  obtain ⟨items, found, _, named, _⟩ := name_eq_importPath_iff accepted (s := { tree }) surveyed
  cases here.symm.trans found
  have looked := (named _ (List.mem_singleton_self _)).2.2 (by decide)
  have shown := RuntimeSource.shown_map_encode ["sub".toList, "é.py".toList]
  exact ⟨here, looked.trans (congrArg _ shown)⟩

/-- The files of a module in a package are not where they are looked for. -/
theorem name_ne_importPath_dotted :
    let path (names : List String) : List Name := names.map fun name => Text.encode name.toList
    let tree : FileTree := ⟨[(path ["rt"], .directory), (path ["rt", "x.py"], .file 0o644 [])]⟩
    let settings : Settings :=
      { runtimeModule := "tools.runtime".toList, runtimeDirectory := "rt".toList }
    (∃ l, settings.launcher = .ok l ∧ "    import tools.runtime".toList ∈ l.programLines true) ∧
      settings.source.archive (m := ReaderM Surroundings) { tree } =
        .ok (.ofArchive (Archive.write [⟨"tools.runtime/x.py".toList, []⟩])) ∧
      Python.importPath "tools.runtime".toList ++ "/x.py".toList = "tools/runtime/x.py".toList ∧
      "tools.runtime/x.py".toList ≠ "tools/runtime/x.py".toList := by
  intro path tree settings
  have accepted : settings.launcher = .ok ⟨Launcher.defaultInterpreters, "tools.runtime".toList,
    Launcher.defaultHint, by decide⟩ := rfl
  exact ⟨⟨_, accepted, import_mem_programLines _⟩, eq_ok_of_toOption (by decide +kernel), by decide,
    by decide⟩

end Settings

end Bootscript
