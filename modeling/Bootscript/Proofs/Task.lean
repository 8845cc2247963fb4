import Bootscript.Proofs.Generator
import Bootscript.Proofs.Report

/-! What the uses of the program do to a tree of files. One that fails leaves it as it was,
and one that makes a script start itself sets the node at the script's path, no other. It
fails only over what it reads, or if the machine does not let it put the new file there. -/
namespace Bootscript

open Bootscript.Path (Name)
open Command (Report)

namespace FileTree

structure IsRewrite (t : FileTree) (working : List Name) (after : FileTree) (path : Bytes)
    (place : List Name) (data : Bytes) (mode : Nat) (bytes : Bytes) : Prop where
  located : t.locate working .itself path = .ok place
  entry : ∃ node ≠ .directory, t.node? place = some node
  read : t.read working path = .ok data
  hadMode : t.mode working path = .ok mode
  written : after.node? place = some (.file ((mode % 0o10000) ||| 0o100) bytes)
  others : ∀ other ≠ place, after.node? other = t.node? other
  targets : ∀ link target, t.node? place = some (.link link) →
    t.locate working .target path = .ok target → after.node? target = t.node? target
  places : after.nodes.map Prod.fst = t.nodes.map Prod.fst

/-- What a replacement does whose path could be read. -/
theorem isRewrite_set {t later : FileTree} {path data bytes : Bytes} {mode : Nat}
    {working place : List Name} (read : t.read working path = .ok data)
    (hadMode : t.mode working path = .ok mode) (more : later.Extends t)
    (located : later.locate working .itself path = .ok place) :
    IsRewrite t working (t.set place (.file (Generator.executable mode) bytes)) path place data mode
      bytes := by
  obtain ⟨fileMode, seen⟩ := stat_of_read read
  obtain ⟨entry, first, node⟩ := locate_itself_of_stat_file seen
  have same := located.symm.trans (locate_of_extends more first)
  cases same
  obtain ⟨target, leads, file⟩ := locate_of_stat_file seen
  have old : ∃ node ≠ .directory, t.node? place = some node := by
    rcases node with node | ⟨link, node⟩
    · exact ⟨.file fileMode data, nofun, node⟩
    · exact ⟨.link link, nofun, node⟩
  have nonempty : place ≠ [] := by
    obtain ⟨_, other, found⟩ := old
    exact ne_nil_of_node?_eq_some found other
  have present : (t.node? place).isSome := by
    obtain ⟨_, _, found⟩ := old
    rw [found, Option.isSome_some]
  refine ⟨first, old, read, hadMode, t.node?_set_self _ nonempty,
    fun other => t.node?_set_of_ne _, ?_, t.places_set _ present⟩
  intro link other linked led
  cases leads.symm.trans led
  apply t.node?_set_of_ne
  rintro rfl
  cases file.symm.trans linked

end FileTree

namespace Task

open Command

def settingsIn (i : Invocation) (s : Surroundings) : Except Refusal Generator :=
  (override i (Settings.load (m := ReaderM Surroundings)
    (i.config.getD Settings.fileName) s)).generator

/-- A use makes a script start itself, by these settings and with or without a payload. -/
inductive Regenerates (s : Surroundings) : Task → Generator → ScriptPath → Bool → Prop
  | command {arguments i g} (parsed : Invocation.parse arguments = .ok i)
    (writes : i.command ≠ .inspect) (settled : settingsIn i s = .ok g) :
    Regenerates s (.command arguments) g (.ofBytes i.script) (i.command == .dist)
  | call {g script distributable} :
    Regenerates s (.generate g script distributable) g script distributable

/-- Uses that differ only in that the second goes from input to output. -/
inductive Pipes : Task → Task → Prop
  | command {arguments others i} (parsed : Invocation.parse arguments = .ok i)
    (piped : Invocation.parse others = .ok { i with script := Text.encode ['-'] }) :
    Pipes (.command arguments) (.command others)
  | call {g script distributable} :
    Pipes (.generate g script distributable) (.generate g .standard distributable)

/-- A use that only looks: it shows a script, or goes from input to output. -/
def Looks : Task → Prop
  | command arguments => ∀ i, Invocation.parse arguments = .ok i →
    i.command = .inspect ∨ ScriptPath.ofBytes i.script = .standard
  | generate _ script _ => script = .standard
  | read .. => True

theorem Regenerates.report {task : Task} {s : Surroundings} {g : Generator} {script : ScriptPath}
    {distributable : Bool} (regenerates : task.Regenerates s g script distributable) :
    task.report (m := ReaderM Surroundings) s =
      .ofResult (g.generate (m := ReaderM Surroundings) script distributable s) := by
  cases regenerates with
  | @command arguments i g parsed writes settled =>
    rw [settingsIn] at settled
    simp only [Task.report, Command.run, parsed, Invocation.run, Surroundings.bind_apply, settled]
    cases named : i.command with
    | gen => rfl
    | dist => rfl
    | inspect => exact absurd named writes
  | call => rfl

inductive Planned (s : Surroundings) (task : Task) : Report → Prop
  | regenerated {g script distributable}
    (regenerates : task.Regenerates s g script distributable) : Planned s task
      (.ofResult (g.generate (m := ReaderM Surroundings) script distributable s))
  | shown {report} (nothing : report.replacement = none) (sound : report.IsSound) :
    Planned s task report

theorem run_of_refused {arguments : List Bytes} {i : Invocation} {s : Surroundings}
    {refusal : Refusal} (parsed : Invocation.parse arguments = .ok i)
    (refused : settingsIn i s = .error refusal) :
    Command.run (m := ReaderM Surroundings) arguments s = .failed (.refused refusal) := by
  rw [settingsIn] at refused
  simp only [Command.run, parsed, Invocation.run, Surroundings.bind_apply, refused]
  rfl

theorem planned_command (arguments : List Bytes) (s : Surroundings) :
    Planned s (.command arguments) (Command.run (m := ReaderM Surroundings) arguments s) := by
  cases parsed : Invocation.parse arguments with
  | error stop =>
    have stopped : Command.run (m := ReaderM Surroundings) arguments s =
        .ofStop (s.help arguments) stop := by
      rw [Command.run, parsed]
      rfl
    rw [stopped]
    exact .shown (by cases stop <;> rfl) (Report.isSound_ofStop _ stop)
  | ok i =>
    cases settled : settingsIn i s with
    | error refusal =>
      rw [run_of_refused parsed settled]
      exact .shown rfl (Report.isSound_failed _)
    | ok g =>
      by_cases writes : i.command = .inspect
      · rw [settingsIn] at settled
        simp only [Command.run, parsed, Invocation.run, Surroundings.bind_apply, settled, writes]
        cases g.read (m := ReaderM Surroundings) (.ofBytes i.script) s with
        | error failure => exact .shown rfl (Report.isSound_failed failure)
        | ok script => exact .shown rfl fun failed => absurd rfl failed
      · have regenerates := Regenerates.command parsed writes settled
        have reported : Command.run (m := ReaderM Surroundings) arguments s = _ :=
          regenerates.report
        rw [reported]
        exact .regenerated regenerates

theorem planned_report (task : Task) (s : Surroundings) :
    Planned s task (task.report (m := ReaderM Surroundings) s) := by
  cases task with
  | command arguments => exact planned_command arguments s
  | generate g script distributable => exact .regenerated .call
  | read g script =>
    simp only [Task.report, Surroundings.bind_apply]
    refine .shown ?_ (Report.isSound_ofResult _)
    cases g.read (m := ReaderM Surroundings) script s <;> rfl

/-- A command that went well had settings that were accepted. -/
theorem exists_regenerates_of_status {arguments : List Bytes} {i : Invocation} {s : Surroundings}
    {outcome : Report × Volume} (parsed : Invocation.parse arguments = .ok i)
    (writes : i.command ≠ .inspect) (success : outcome.1.status = 0)
    (carried : Report.Carried s.tree s.working
      (Command.run (m := ReaderM Surroundings) arguments s) outcome) :
    ∃ g, (Task.command arguments).Regenerates s g (.ofBytes i.script) (i.command == .dist) := by
  cases settled : settingsIn i s with
  | error refusal =>
    rw [run_of_refused parsed settled] at carried
    cases carried <;> cases success
  | ok g => exact ⟨g, .command parsed writes settled⟩

theorem Planned.isSound {s : Surroundings} {task : Task} {report : Report}
    (planned : Planned s task report) : report.IsSound := by
  cases planned with
  | regenerated => exact Report.isSound_ofResult _
  | shown _ sound => exact sound

/-- What a run in a tree of files may do: fail and leave the tree as it was, look, or put a
file in the place of the script that a path names. The run from input to output that has the
same bytes to read prints the bytes of that file. Where the script and what it embeds can be
read and the machine allows for the new file, the run does not fail. -/
structure IsSafe (task : Task) (s : Surroundings) (conditions : Conditions) (report : Report)
    (after : FileTree) : Prop where
  failed : report.status ≠ 0 → after = s.tree ∧ report.output = []
  looked : task.Looks → after = s.tree
  settled : ∀ arguments i, task = .command arguments → Invocation.parse arguments = .ok i →
    i.command ≠ .inspect → report.status = 0 →
      ∃ g, task.Regenerates s g (.ofBytes i.script) (i.command == .dist)
  rewrote : ∀ g path distributable, task.Regenerates s g (.file path) distributable →
    report.status = 0 → ∃ place data mode script payload,
      g.parse data = .ok script ∧ g.payloadIn s distributable = .ok payload ∧
      s.tree.IsRewrite s.working after path place data mode
        (script.install g.launcher payload).bytes ∧
      ∀ (piped : Task) conditions,
        piped.Regenerates { s with input := data } g .standard distributable →
        piped.run { s with input := data } conditions =
          ({ status := 0, output := (script.install g.launcher payload).bytes }, s.tree)
  pipes : ∀ piped g script distributable input, task.Pipes piped →
    task.Regenerates s g script distributable →
      piped.Regenerates { s with input } g .standard distributable
  changed : after ≠ s.tree → report.status = 0 ∧
    ∃ g path distributable, task.Regenerates s g (.file path) distributable
  printed : ∀ g distributable script payload, task.Regenerates s g .standard distributable →
    g.parse s.input = .ok script → g.payloadIn s distributable = .ok payload →
      report = { status := 0, output := (script.install g.launcher payload).bytes }
  succeeded : ∀ g path distributable data script payload,
    task.Regenerates s g (.file path) distributable → s.read path = .ok data →
    s.refusal .status path = none → g.parse data = .ok script →
    g.payloadIn s distributable = .ok payload →
    Replacement.hasRoom (Path.ofNames s.working) path →
    Replacement.IsAllowed path s.tree conditions → report.status = 0

theorem Looks.eq_standard {task : Task} (looks : task.Looks) {s : Surroundings} {g : Generator}
    {script : ScriptPath} {distributable : Bool}
    (regenerates : task.Regenerates s g script distributable) : script = .standard := by
  cases regenerates with
  | command parsed writes settled =>
    rcases looks _ parsed with inspects | standard
    · exact absurd inspects writes
    · exact standard
  | call => exact looks

theorem settingsIn_input (i : Invocation) (s : Surroundings) (input : Bytes) :
    settingsIn i { s with input } = settingsIn i s := by
  have same (path : Bytes) : Host.read (m := ReaderM Surroundings) path { s with input } =
    Host.read (m := ReaderM Surroundings) path s := rfl
  simp only [settingsIn, Settings.load, Surroundings.bind_apply, same]
  cases Host.read (m := ReaderM Surroundings) (i.config.getD Settings.fileName) s <;> rfl

/-- The settings do not depend on the input of the run, nor on the script. -/
theorem Pipes.regenerates {task piped : Task} (pipes : task.Pipes piped) {s : Surroundings}
    {g : Generator} {script : ScriptPath} {distributable : Bool} (input : Bytes)
    (regenerates : task.Regenerates s g script distributable) :
    piped.Regenerates { s with input } g .standard distributable := by
  cases pipes with
  | command parsed piped =>
    cases regenerates with
    | command parsed' writes settled =>
      cases parsed.symm.trans parsed'
      rw [← settingsIn_input _ _ input] at settled
      exact .command piped writes settled
  | call =>
    cases regenerates
    exact .call

theorem replacement_standard (g : Generator) (distributable : Bool) (s : Surroundings) :
    (Report.ofResult
      (g.generate (m := ReaderM Surroundings) .standard distributable s)).replacement = none := by
  rw [Generator.generate_standard]
  cases g.regenerate s.input (g.payloadIn s distributable) <;> rfl

/-- Only a use that makes a script start itself in its place has something to write. -/
theorem Planned.exists_of_replacement {s : Surroundings} {task : Task} {report : Report}
    (planned : Planned s task report) (something : report.replacement ≠ none) :
    ∃ g path distributable, task.Regenerates s g (.file path) distributable := by
  cases planned with
  | @regenerated g script distributable regenerates =>
    cases script with
    | standard => exact absurd (replacement_standard g distributable s) something
    | file path => exact ⟨g, path, distributable, regenerates⟩
  | shown nothing _ => exact absurd nothing something

variable (task : Task) (s : Surroundings) (conditions : Conditions)

/-- A run from input to output. -/
theorem run_standard {g : Generator} {distributable : Bool} {bytes : Bytes}
    (regenerates : task.Regenerates s g .standard distributable)
    (done : g.regenerate s.input (g.payloadIn s distributable) = .ok bytes) :
    task.run s conditions = ({ status := 0, output := bytes }, s.tree) := by
  have report : task.report (m := ReaderM Surroundings) s = { status := 0, output := bytes } := by
    rw [regenerates.report, Generator.generate_standard, done]
    rfl
  rw [Task.run, report]
  rfl

/-- What a run in place that went well has read, and what it leaves. -/
theorem isRewrite_of_carried {g : Generator} {path : Bytes} {distributable : Bool}
    {outcome : Report × Volume} (carried : Report.Carried s.tree s.working (.ofResult
      (g.generate (m := ReaderM Surroundings) (.file path) distributable s)) outcome)
    (success : outcome.1.status = 0) : ∃ place data mode bytes,
      g.regenerate data (g.payloadIn s distributable) = .ok bytes ∧
        Replacement.hasRoom (Path.ofNames s.working) path ∧
        (∀ access, s.refusal access path = none) ∧
        outcome.2.tree = s.tree.set place (.file (Generator.executable mode) bytes) ∧
        s.tree.IsRewrite s.working outcome.2.tree path place data mode bytes := by
  cases result : g.generate (m := ReaderM Surroundings) (.file path) distributable s with
  | error failure =>
    rw [result] at carried
    cases carried <;> cases success
  | ok product =>
    obtain ⟨data, mode, bytes, read, hadMode, regenerated, room, rfl⟩ :=
      g.exists_of_generate_file s _ result
    obtain ⟨opened, read⟩ := Surroundings.allow_eq_ok_iff.1 read
    obtain ⟨seen, hadMode⟩ := Surroundings.allow_eq_ok_iff.1 hadMode
    have allowed (access : Access) : s.refusal access path = none := by cases access <;> assumption
    rw [result] at carried
    cases carried with
    | idle nothing => cases nothing
    | refused => cases success
    | @replaced v r later place something more located whole =>
      cases something
      refine ⟨place, data, mode, bytes, regenerated, room, allowed, whole, ?_⟩
      rw [whole]
      exact FileTree.isRewrite_set read hadMode more located

/-- What a use has to write goes to the place of a file or of a link to one. -/
theorem exists_of_replacement_eq_some {r : Replacement}
    (something : (task.report (m := ReaderM Surroundings) s).replacement = some r) :
    ∃ target old, Replacement.hasRoom (Path.ofNames s.working) r.path ∧
      s.tree.locate s.working .itself r.path = .ok target ∧
      s.tree.node? target = some old ∧ old ≠ .directory := by
  have some : (task.report (m := ReaderM Surroundings) s).replacement ≠ none := by
    rw [something]
    nofun
  obtain ⟨g, path, distributable, regenerates⟩ :=
    (planned_report task s).exists_of_replacement some
  rw [regenerates.report] at something
  cases result : g.generate (m := ReaderM Surroundings) (.file path) distributable s with
  | error failure => rw [result] at something; cases something
  | ok product =>
    obtain ⟨data, mode, bytes, read, _, _, room, rfl⟩ := g.exists_of_generate_file s _ result
    rw [result] at something
    cases something
    obtain ⟨_, seen⟩ := FileTree.stat_of_read (Surroundings.allow_eq_ok_iff.1 read).2
    obtain ⟨target, located, file | ⟨_, link⟩⟩ := FileTree.locate_itself_of_stat_file seen
    · exact ⟨target, _, room, located, file, nofun⟩
    · exact ⟨target, _, room, located, link, nofun⟩

/-- A run on a machine that refuses nothing reports what was planned before it wrote. -/
theorem run_eq_report
    (allowed : ∀ r, (task.report (m := ReaderM Surroundings) s).replacement = some r →
      Replacement.IsAllowed r.path s.tree conditions) :
    (task.run s conditions).1 = task.report (m := ReaderM Surroundings) s := by
  refine Report.carryOut_eq fun r something => ?_
  obtain ⟨target, old, room, located, there, other⟩ :=
    exists_of_replacement_eq_some task s something
  exact Replacement.commit_eq_ok (allowed r something) room located there other

theorem status_run_eq_zero {g : Generator} {path data : Bytes} {distributable : Bool}
    {script : Script} {payload : Option Payload}
    (regenerates : task.Regenerates s g (.file path) distributable)
    (read : s.read path = .ok data) (seen : s.refusal .status path = none)
    (parsed : g.parse data = .ok script) (archived : g.payloadIn s distributable = .ok payload)
    (room : Replacement.hasRoom (Path.ofNames s.working) path)
    (allowed : Replacement.IsAllowed path s.tree conditions) :
    (task.run s conditions).1.status = 0 := by
  obtain ⟨mode, file⟩ := FileTree.stat_of_read (Surroundings.allow_eq_ok_iff.1 read).2
  have hadMode : s.mode path = .ok mode :=
    Surroundings.allow_eq_ok_iff.2 ⟨seen, FileTree.mode_of_stat_file file⟩
  have planned : task.report (m := ReaderM Surroundings) s = .ofResult (.ok
      { replacement := some
          ⟨path, (script.install g.launcher payload).bytes, Generator.executable mode⟩ }) := by
    have regenerated := g.regenerate_eq_ok_iff.2 ⟨script, payload, parsed, archived, rfl⟩
    rw [regenerates.report, Generator.generate_file]
    simp only [read, hadMode, ok_mapError, ok_bind, regenerated, room, ↓reduceIte]
    rfl
  rw [run_eq_report task s conditions, planned]
  · rfl
  · intro r something
    rw [planned] at something
    cases something
    exact allowed

theorem isSafe_run :
    task.IsSafe s conditions (task.run s conditions).1 (task.run s conditions).2 := by
  have planned := planned_report task s
  have printed := @run_standard task s conditions
  have succeeded := @status_run_eq_zero task s conditions
  have carried := (task.report (m := ReaderM Surroundings) s).carried_carryOut
    ⟨s.tree, s.working, conditions⟩
  simp only [Task.run] at printed succeeded ⊢
  generalize (task.report (m := ReaderM Surroundings) s).carryOut (m := StateM Volume)
    ⟨s.tree, s.working, conditions⟩ = outcome at carried printed succeeded ⊢
  constructor
  case failed => exact carried.failed planned.isSound
  case looked =>
    intro looks
    apply carried.kept
    by_contra something
    obtain ⟨g, path, distributable, regenerates⟩ := planned.exists_of_replacement something
    cases looks.eq_standard regenerates
  case settled =>
    rintro arguments i rfl parsed writes success
    exact exists_regenerates_of_status parsed writes success carried
  case rewrote =>
    intro g path distributable regenerates success
    rw [regenerates.report] at carried
    obtain ⟨place, data, mode, bytes, regenerated, _, _, _, rewrite⟩ :=
      isRewrite_of_carried s carried success
    obtain ⟨script, payload, parsed, archived, rfl⟩ := g.regenerate_eq_ok_iff.1 regenerated
    refine ⟨place, data, mode, script, payload, parsed, archived, rewrite, ?_⟩
    intro piped conditions other
    rw [← payloadIn_input s data] at regenerated
    exact run_standard piped { s with input := data } conditions other regenerated
  case pipes => exact fun piped g script distributable input pipes => pipes.regenerates input
  case changed =>
    intro other
    exact (carried.changed planned.isSound other).imp_right planned.exists_of_replacement
  case printed =>
    intro g distributable script payload regenerates parsed archived
    have regenerated := g.regenerate_eq_ok_iff.2 ⟨script, payload, parsed, archived, rfl⟩
    exact congrArg Prod.fst (printed regenerates regenerated)
  case succeeded => exact fun g path distributable data script payload => succeeded

end Task

/-- A run that nothing stands in the way of, in a tree with a free name for a new file. -/
theorem Surroundings.run_eq_report (s : Surroundings) (arguments : List Bytes)
    (free : ∀ r, (Command.run (m := ReaderM Surroundings) arguments s).replacement = some r →
      ∃ n < Replacement.attempts, ∀ directory, s.tree.node? (directory ++
        [(Replacement.temporaryName r.path (Nat.toDigits 10 (100000 + n))).encode]) = none) :
    (s.run arguments).1 = Command.run (m := ReaderM Surroundings) arguments s :=
  Task.run_eq_report _ _ _ fun r something => Replacement.isAllowed_default (free r something)

end Bootscript
