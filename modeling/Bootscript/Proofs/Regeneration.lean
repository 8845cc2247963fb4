import Bootscript.Proofs.Archive.Directory
import Bootscript.Proofs.RuntimeSource.Frame
import Bootscript.Proofs.Script.Embedded
import Bootscript.Proofs.Script.Regenerate
import Bootscript.Proofs.Script.Notice
import Bootscript.Proofs.Task

/-! Making a script start itself once more. The second run finds the script as the first one
wrote it, and the runtime as it was but for the script, if the script is a file of the runtime. -/
namespace Bootscript

open Bootscript.Path (Name)

namespace FileTree

structure IsPut (t : FileTree) (working : List Name) (after : FileTree) (path : Bytes)
    (place : List Name) (mode : Nat) (bytes : Bytes) : Prop where
  blind : t.IsBlind place
  whole : after = t.set place (.file mode bytes)
  leads : ∀ ending, after.locate working ending path = .ok place

namespace IsPut

variable {t after : FileTree} {working place : List Name} {path bytes : Bytes} {mode : Nat}
  (put : t.IsPut working after path place mode bytes)
include put

theorem file : after.node? place = some (.file mode bytes) := by
  obtain ⟨_, closed, node⟩ := put.blind.exists_node
  rw [put.whole]
  exact t.node?_set_self _ (ne_nil_of_node?_eq_some node closed)

theorem stat : after.stat working .target path = .ok (.file mode bytes) :=
  stat_of_locate (put.leads .target) put.file

end IsPut

end FileTree

theorem Archive.entry_injective : Function.Injective Archive.Member.entry := by
  intro m m' same
  cases m
  cases m'
  cases same
  rfl

def RuntimeSource.IsStorable (source : RuntimeSource) (s : Surroundings) : Prop :=
  ∀ members, source.members (m := ReaderM Surroundings) s = .ok members →
    Archive.Fits members (s.pack members)

/-- A faithful packer makes one archive of the members of a source and no others. -/
theorem RuntimeSource.members_eq_of_pack_eq {source : RuntimeSource} {s s' : Surroundings}
    {members members' : List Archive.Member} (faithful : Archive.IsFaithful s.pack)
    (fits : source.IsStorable s) (fits' : source.IsStorable s')
    (made : source.members (m := ReaderM Surroundings) s = .ok members)
    (made' : source.members (m := ReaderM Surroundings) s' = .ok members')
    (packer : s'.pack = s.pack) (same : s.pack members = s'.pack members') :
    members' = members := by
  obtain ⟨_, _, _, _, distinct⟩ := members_eq_ok_iff.1 made
  obtain ⟨_, _, _, _, distinct'⟩ := members_eq_ok_iff.1 made'
  have read := faithful members distinct (fits members made)
  have read' := faithful members' distinct' (packer ▸ fits' members' made')
  rw [same, packer, read'] at read
  exact Archive.entry_injective.list_map (Option.some.inj read)

/-- Scripts that are written alike embed the same. -/
theorem Script.archive_eq_of_bytes_eq {canonical : Bool} {data data' : Bytes} {s s' : Script}
    (parsed : parse canonical data = .ok s) (parsed' : parse canonical data' = .ok s')
    {l l' : Launcher} {archive archive' : Bytes}
    (same : (s.install l (some (.ofArchive archive))).bytes =
      (s'.install l' (some (.ofArchive archive'))).bytes) : archive = archive' := by
  obtain ⟨_, _, rows, read, behind, _, whole, _, _, decoded, _⟩ :=
    parse_install_ofArchive parsed l archive canonical
  obtain ⟨_, _, rows', read', behind', _, whole', _, _, decoded', _⟩ :=
    parse_install_ofArchive parsed' l' archive' canonical
  rw [same] at read
  cases read.symm.trans read'
  cases behind.symm.trans behind'
  have rows : rows = rows' :=
    List.append_cancel_right (List.tail_eq_of_cons_eq (whole.symm.trans whole'))
  rw [rows] at decoded
  exact Option.some.inj (decoded.symm.trans decoded')

namespace Generator

variable {g : Generator} {s : Surroundings} {distributable : Bool}

theorem payloadIn_distributable : g.payloadIn s true =
    (g.source.members (m := ReaderM Surroundings) s).map fun members =>
      some (.ofArchive (s.pack members)) := by
  have archived : g.payloadIn s true =
    (g.source.archive (m := ReaderM Surroundings) s).map some := rfl
  rw [archived, RuntimeSource.archive_eq_map]
  cases g.source.members (m := ReaderM Surroundings) s <;> rfl

theorem payloadIn_eq_ok_iff {found : Option Payload} : g.payloadIn s true = .ok found ↔
    ∃ members, g.source.members (m := ReaderM Surroundings) s = .ok members ∧
      some (.ofArchive (s.pack members)) = found := by
  rw [payloadIn_distributable, map_eq_ok_iff]

theorem exists_archive {found : Option Payload} (done : g.payloadIn s distributable = .ok found) :
    ∃ archive : Option Bytes, found = archive.map Payload.ofArchive := by
  cases distributable with
  | false =>
    cases done
    exact ⟨none, rfl⟩
  | true =>
    obtain ⟨members, _, rfl⟩ := payloadIn_eq_ok_iff.1 done
    exact ⟨some (s.pack members), rfl⟩

theorem regenerate_ofArchive (g : Generator) (data : Bytes) (archive : Option Bytes) :
    g.regenerate data (.ok (archive.map Payload.ofArchive)) =
      (Script.regenerate g.canonical ⟨g.launcher, archive⟩ data).mapError .malformed := by
  rw [regenerate, Script.regenerate, parse]
  cases Script.parse g.canonical data <;> rfl

/-- What was made of a script is made of it again. -/
theorem regenerate_again {data bytes : Bytes} {found : Option Payload}
    (archived : g.payloadIn s distributable = .ok found)
    (done : g.regenerate data (.ok found) = .ok bytes) :
    g.regenerate bytes (.ok found) = .ok bytes := by
  obtain ⟨archive, rfl⟩ := exists_archive archived
  rw [regenerate_ofArchive] at done ⊢
  have first := eq_ok_of_mapError done
  have again := Script.regenerate_regenerate g.canonical g.canonical ⟨g.launcher, archive⟩
    ⟨g.launcher, archive⟩ data
  rw [first] at again
  exact congrArg (Except.mapError _) again

theorem executable_executable (mode : Nat) : executable (executable mode) = executable mode := by
  have owner : 0o100 % 2 ^ 12 = 0o100 := by decide
  rw [executable, executable, show 0o10000 = 2 ^ 12 from rfl, Nat.or_mod_two_pow, Nat.mod_mod,
    owner, Nat.or_assoc, Nat.or_self]

section Again

variable {after : FileTree} {place : List Name} {mode : Nat} {bytes : Bytes}
  {found : Option Payload} {refusal : Access → Bytes → Option OsError} (formed : s.tree.IsFormed)
  (blind : s.tree.IsBlind place) (whole : after = s.tree.set place (.file mode bytes))
  (kept : ∀ access path, s.refusal access path = none → refusal access path = none)
include formed blind whole kept

/-- What is to be embedded is the same after a file was put somewhere, if it has the bytes of
the file that was there or is not selected. -/
theorem payloadIn_again (done : g.payloadIn s distributable = .ok found)
    (agrees : distributable = true → g.source.Takes { s with tree := after, refusal } place →
      s.tree.SameFile after place) :
    g.payloadIn { s with tree := after, refusal } distributable = .ok found := by
  subst whole
  cases distributable with
  | false => exact done
  | true =>
    obtain ⟨members, made, rfl⟩ := payloadIn_eq_ok_iff.1 done
    have made' := (RuntimeSource.members_set_iff formed blind kept made).2 (agrees rfl)
    exact payloadIn_eq_ok_iff.2 ⟨members, made', rfl⟩

/-- Scripts that are written alike were made of the same members. -/
theorem sameFile_of_regenerate {data data' written : Bytes} (faithful : Archive.IsFaithful s.pack)
    (fits : g.source.IsStorable s)
    (fits' : g.source.IsStorable { s with tree := after, refusal })
    (regenerated : g.regenerate data (g.payloadIn s true) = .ok written)
    (again : g.regenerate data' (g.payloadIn { s with tree := after, refusal } true) =
      .ok written)
    (taken : g.source.Takes { s with tree := after, refusal } place) :
    s.tree.SameFile after place := by
  obtain ⟨script, _, parsed, found, rfl⟩ := g.regenerate_eq_ok_iff.1 regenerated
  obtain ⟨script', _, parsed', found', same⟩ := g.regenerate_eq_ok_iff.1 again
  obtain ⟨members, made, rfl⟩ := payloadIn_eq_ok_iff.1 found
  obtain ⟨members', made', rfl⟩ := payloadIn_eq_ok_iff.1 found'
  have archives := Script.archive_eq_of_bytes_eq (eq_ok_of_mapError parsed)
    (eq_ok_of_mapError parsed') same
  cases RuntimeSource.members_eq_of_pack_eq faithful fits fits' made made' rfl archives
  subst whole
  exact (RuntimeSource.members_set_iff formed blind kept made).1 made' taken

end Again

end Generator

namespace Task

variable {g : Generator} {path : Bytes} {distributable : Bool} {s : Surroundings}
  {conditions : Conditions}

theorem isRewrite_of_status
    (success : ((Task.generate g (.file path) distributable).run s conditions).1.status = 0) :
    ∃ place data mode bytes, g.regenerate data (g.payloadIn s distributable) = .ok bytes ∧
      Replacement.hasRoom (Path.ofNames s.working) path ∧
      (∀ access, s.refusal access path = none) ∧
      ((Task.generate g (.file path) distributable).run s conditions).2 =
        s.tree.set place (.file (Generator.executable mode) bytes) ∧
      s.tree.IsRewrite s.working ((Task.generate g (.file path) distributable).run s conditions).2
        path place data mode bytes :=
  isRewrite_of_carried s (Command.Report.carried_carryOut (.ofResult
    (g.generate (m := ReaderM Surroundings) (.file path) distributable s))
      ⟨s.tree, s.working, conditions⟩) success

/-- A run that went well leaves a script to which the path leads. -/
theorem exists_isPut
    (success : ((Task.generate g (.file path) distributable).run s conditions).1.status = 0) :
    ∃ place data mode bytes, g.regenerate data (g.payloadIn s distributable) = .ok bytes ∧
      Replacement.hasRoom (Path.ofNames s.working) path ∧
      (∀ access, s.refusal access path = none) ∧
      s.tree.IsPut s.working ((Task.generate g (.file path) distributable).run s conditions).2 path
        place (Generator.executable mode) bytes := by
  obtain ⟨place, data, mode, bytes, regenerated, room, seen, whole, rewrite⟩ :=
    isRewrite_of_status success
  obtain ⟨_, located, blind⟩ := FileTree.exists_isBlind_of_read rewrite.read
  cases rewrite.located.symm.trans located
  refine ⟨place, data, mode, bytes, regenerated, room, seen, blind, whole, fun ending => ?_⟩
  have file := rewrite.written
  rw [whole] at file ⊢
  exact FileTree.locate_set_of_file blind located blind.not_directory file

/-- What a run that went well has made of the script that it found. -/
theorem exists_tree_run {place : List Name} {mode : Nat} {data : Bytes}
    (success : ((Task.generate g (.file path) distributable).run s conditions).1.status = 0)
    (located : s.tree.locate s.working .itself path = .ok place)
    (seen : s.tree.stat s.working .target path = .ok (.file mode data)) :
    ∃ bytes, g.regenerate data (g.payloadIn s distributable) = .ok bytes ∧
      ((Task.generate g (.file path) distributable).run s conditions).2 =
        s.tree.set place (.file (Generator.executable mode) bytes) := by
  obtain ⟨_, _, _, bytes, regenerated, _, _, whole, rewrite⟩ := isRewrite_of_status success
  cases located.symm.trans rewrite.located
  cases (FileTree.read_of_stat_file seen).symm.trans rewrite.read
  cases (FileTree.mode_of_stat_file seen).symm.trans rewrite.hadMode
  exact ⟨bytes, regenerated, whole⟩

section Again

variable {after : FileTree} {place : List Name} {mode : Nat} {data bytes : Bytes}
  {again : Conditions} {refusal : Access → Bytes → Option OsError}
  (regenerated : g.regenerate data (g.payloadIn s distributable) = .ok bytes)
  (put : s.tree.IsPut s.working after path place (Generator.executable mode) bytes)

include regenerated in
theorem exists_parse_again : ∃ script, g.parse bytes = .ok script := by
  obtain ⟨_, _, _, first, _⟩ := g.regenerate_eq_ok_iff.1 regenerated
  rw [first] at regenerated
  obtain ⟨script, _, parsed, _, _⟩ :=
    g.regenerate_eq_ok_iff.1 (g.regenerate_again first regenerated)
  exact ⟨script, parsed⟩

include put in
theorem read_again (seen : ∀ access, refusal access path = none) :
    Surroundings.read { s with tree := after, refusal } path = .ok bytes :=
  Surroundings.allow_eq_ok_iff.2 ⟨seen .content, FileTree.read_of_stat_file put.stat⟩

include regenerated put

/-- A script that a run has put is made again if there still is something to embed. -/
theorem status_run_again {found : Option Payload}
    (room : Replacement.hasRoom (Path.ofNames s.working) path)
    (seen : ∀ access, refusal access path = none)
    (archived : g.payloadIn { s with tree := after, refusal } distributable = .ok found)
    (allowed : Replacement.IsAllowed path after again) :
    ((Task.generate g (.file path) distributable).run
      { s with tree := after, refusal } again).1.status = 0 := by
  obtain ⟨_, parsed⟩ := exists_parse_again regenerated
  exact status_run_eq_zero _ _ again .call (read_again put seen) (seen .status) parsed archived room
    allowed

/-- A script that a run has put stays as it is if there is nothing to embed any more. -/
theorem run_again_of_error {failure : Failure} (seen : ∀ access, refusal access path = none)
    (failed : g.payloadIn { s with tree := after, refusal } distributable = .error failure) :
    (Task.generate g (.file path) distributable).run { s with tree := after, refusal } again =
      (.failed failure, after) := by
  obtain ⟨_, parsed⟩ := exists_parse_again regenerated
  have planned : (Task.generate g (.file path) distributable).report (m := ReaderM Surroundings)
      { s with tree := after, refusal } = .failed failure := by
    rw [Regenerates.call.report, Generator.generate_file, read_again put seen, ok_mapError, ok_bind,
      Generator.regenerate, parsed, failed]
    rfl
  rw [Task.run, planned]
  rfl

/-- The next run puts the same script if it embeds the same. -/
theorem tree_run_again
    (same : g.payloadIn { s with tree := after, refusal } distributable =
      g.payloadIn s distributable)
    (success : ((Task.generate g (.file path) distributable).run
      { s with tree := after, refusal } again).1.status = 0) :
    ((Task.generate g (.file path) distributable).run
      { s with tree := after, refusal } again).2 = after := by
  obtain ⟨later, regenerated', whole⟩ := exists_tree_run success (put.leads .itself) put.stat
  obtain ⟨_, _, _, archived, _⟩ := g.regenerate_eq_ok_iff.1 regenerated
  rw [archived] at regenerated same
  rw [same, g.regenerate_again archived regenerated] at regenerated'
  cases regenerated'
  obtain ⟨_, rfl, _⟩ := put
  simpa only [Generator.executable_executable, FileTree.set_set] using whole

omit regenerated in
/-- A run that leaves the script that it finds makes it of itself. -/
theorem regenerate_of_tree_run_again
    (success : ((Task.generate g (.file path) distributable).run
      { s with tree := after, refusal } again).1.status = 0)
    (same : ((Task.generate g (.file path) distributable).run
      { s with tree := after, refusal } again).2 = after) :
    g.regenerate bytes (g.payloadIn { s with tree := after, refusal } distributable) =
      .ok bytes := by
  obtain ⟨later, regenerated, whole⟩ := exists_tree_run success (put.leads .itself) put.stat
  obtain ⟨_, closed, node⟩ := put.blind.exists_node
  have file := put.file
  have nonempty := FileTree.ne_nil_of_node?_eq_some node closed
  rw [← same, whole, FileTree.node?_set_self _ _ nonempty] at file
  rwa [(Node.file.inj (Option.some.inj file)).2] at regenerated

end Again

/-- After a run that went well, the next run leaves the tree as it is if the script is no file
of the runtime, or one with the bytes that it had before. Otherwise it fails or leaves another
script, as the members of what a faithful packer makes tell the two scripts apart. -/
theorem run_again_iff {again : Conditions} {refusal : Access → Bytes → Option OsError}
    (formed : s.tree.IsFormed)
    (success : ((Task.generate g (.file path) distributable).run s conditions).1.status = 0)
    (kept : ∀ access path, s.refusal access path = none → refusal access path = none)
    (allowed : Replacement.IsAllowed path
      ((Task.generate g (.file path) distributable).run s conditions).2 again) :
    let task := Task.generate g (.file path) distributable
    let after := (task.run s conditions).2
    let later : Surroundings := { s with tree := after, refusal }
    let second := task.run later again
    let agrees := distributable = true → ∀ place,
      after.locate s.working .itself path = .ok place → g.source.Takes later place →
        s.tree.SameFile after place
    (agrees → second.1.status = 0 ∧ second.2 = after) ∧
      (Archive.IsFaithful s.pack → g.source.IsStorable s → g.source.IsStorable later →
        second.1.status = 0 → second.2 = after → agrees) := by
  intro task after later second agrees
  obtain ⟨place, data, mode, bytes, regenerated, room, seen, put⟩ := exists_isPut success
  have leads : after.locate s.working .itself path = .ok place := put.leads .itself
  constructor
  · intro agrees
    obtain ⟨_, _, _, archived, _⟩ := g.regenerate_eq_ok_iff.1 regenerated
    have archived' : g.payloadIn later distributable = _ :=
      Generator.payloadIn_again formed put.blind put.whole kept archived
        fun distributes => agrees distributes place leads
    have settled := status_run_again regenerated put room (fun access => kept _ _ (seen access))
      archived' allowed
    exact ⟨settled, tree_run_again regenerated put (archived'.trans archived.symm) settled⟩
  · rintro faithful fits fits' settled same rfl place' located taken
    cases leads.symm.trans located
    exact Generator.sameFile_of_regenerate formed put.blind put.whole kept faithful fits fits'
      regenerated (regenerate_of_tree_run_again put settled same) taken

/-- A script beside the runtime is the same after each run. -/
theorem run_again_beside :
    let path (names : List String) : List Name := names.map fun name => Text.encode name.toList
    let s : Surroundings := { tree := ⟨[(path ["bin"], .directory),
      (path ["bin", "go"], .file 0o644 (Text.encode "go()\n".toList)), (path ["pysh"], .directory),
      (path ["pysh", "x.py"], .file 0o644 (Text.encode "x = 1\n".toList))]⟩ }
    let g : Generator := { launcher := .standard, source := Settings.source {} }
    let script := Text.encode "bin/go".toList
    let task := Task.generate g (.file script) true
    let after := (task.run s {}).2
    let second := task.run { s with tree := after } {}
    (task.run s {}).1.status = 0 ∧ second.1.status = 0 ∧ second.2 = after := by
  intro path s g script
  -- The first run is written out below, so that no step has to evaluate it to compare it.
  have formed : s.tree.IsFormed := by decide +kernel
  have success : ((Task.generate g (.file script) true).run s {}).1.status = 0 := by
    decide +kernel
  have located : ((Task.generate g (.file script) true).run s {}).2.locate s.working .itself script =
      .ok (path ["bin", "go"]) := eq_ok_of_toOption (by decide +kernel)
  have runtime : ((Task.generate g (.file script) true).run s {}).2.locate s.working .target
      g.source.root = .ok (path ["pysh"]) := eq_ok_of_toOption (by decide +kernel)
  have free : ∀ place ∈ ((Task.generate g (.file script) true).run s {}).2.places, place.getLast? ≠
      some (Replacement.temporaryName script (Nat.toDigits 10 (100000 + 0))).encode := by
    decide +kernel
  have allowed := Replacement.isAllowed_default
    ⟨0, by decide, FileTree.node?_eq_none_of_places free⟩
  refine ⟨success, (run_again_iff formed success (fun _ _ => id) allowed).1 ?_⟩
  rintro - _ same ⟨root, _, item, led, -, -, rfl⟩
  cases runtime.symm.trans led
  cases located.symm.trans same

/-- A script to which a link led is a file of the runtime after the first run, and the next run
finds that its name is shown like that of another. -/
theorem run_again_clash :
    let pysh : Name := Text.encode "pysh".toList
    let name (byte : UInt8) : Name := 0x61 :: byte :: Text.encode ".py".toList
    let shown : Text := "pysh/a\ufffd.py".toList
    let s : Surroundings := { tree := ⟨[
      ([Text.encode "go".toList], .file 0o644 (Text.encode "go()\n".toList)), ([pysh], .directory),
      ([pysh, name 0xFE], .file 0o644 (Text.encode "x = 1\n".toList)),
      ([pysh, name 0xFF], .link (Text.encode "../go".toList))]⟩ }
    let g : Generator := { launcher := .standard, source := Settings.source {} }
    let task := Task.generate g (.file (Path.join pysh [name 0xFF])) true
    let after := (task.run s {}).2
    (task.run s {}).1.status = 0 ∧
      task.run { s with tree := after } {} = (.failed (.duplicateMember shown), after) := by
  intro pysh name shown s g task
  have success : (task.run s {}).1.status = 0 := by decide +kernel
  obtain ⟨_, _, _, _, regenerated, _, seen, put⟩ := exists_isPut success
  have surveyed : Surroundings.survey { s with tree := (task.run s {}).2 } g.source.root =
      .ok (.directory [[name 0xFE], [name 0xFF]]) := eq_ok_of_toOption (by decide +kernel)
  have selected : g.source.select (.directory [[name 0xFE], [name 0xFF]]) =
      [⟨shown, [name 0xFE]⟩, ⟨shown, [name 0xFF]⟩] :=
    List.mergeSort_of_pairwise (by decide +kernel)
  have found := RuntimeSource.items_eq_ok_iff.2 ⟨_, surveyed, selected.symm⟩
  have first : g.source.Holds { s with tree := (task.run s {}).2 } ⟨shown, [name 0xFE]⟩
      ⟨shown, Text.encode "x = 1\n".toList⟩ := ⟨rfl, eq_ok_of_toOption (by decide +kernel)⟩
  have second : g.source.Holds { s with tree := (task.run s {}).2 } ⟨shown, [name 0xFF]⟩
      ⟨shown, _⟩ := ⟨rfl, read_again put seen⟩
  have clash : g.source.members (m := ReaderM Surroundings) { s with tree := (task.run s {}).2 } =
      .error (.duplicateMember shown) := by
    rw [RuntimeSource.members_of_items found, if_neg (List.cons_ne_nil _ _),
      RuntimeSource.collect_of_holds first, RuntimeSource.collect_of_holds second]
    exact (if_neg List.not_mem_nil).trans (if_pos (List.mem_singleton_self _))
  refine ⟨success, run_again_of_error regenerated put seen ?_⟩
  rw [Generator.payloadIn_distributable, clash]
  rfl

end Task

end Bootscript
