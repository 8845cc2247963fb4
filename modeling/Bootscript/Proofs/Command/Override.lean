import Bootscript.Proofs.Task
import Bootscript.Proofs.Utf8

/-! Options of the command line stand in the place of settings from a file. A run by options
comes to what a generator with those settings comes to, but that the directory of the runtime
goes through text on its way: a path that is not UTF-8 becomes another one. -/
namespace Bootscript

open Bootscript.Path (Name)
open Command (Invocation Report override)

namespace Text

/-- A path after it was kept as text: the same if it is UTF-8, and only then. -/
def throughText (path : Bytes) : Bytes := (decodeLossy path).encode

theorem decodeLossy_encode (text : Text) : decodeLossy text.encode = text := by
  rw [decodeLossy, Utf8.decode_encode, List.map_map]
  exact List.map_id text

theorem throughText_eq_self_iff (path : Bytes) :
    throughText path = path ↔ (decode? path).isSome := by
  rw [Option.isSome_iff_exists]
  constructor
  · intro same
    exact ⟨decodeLossy path, decode?_eq_some_iff.2 same.symm⟩
  · rintro ⟨text, decoded⟩
    rw [decode?_eq_some_iff.1 decoded, throughText, decodeLossy_encode]

end Text

namespace Settings

variable {s : Surroundings} {path : Bytes} {settings : Settings}

/-- The settings of a file in a tree. Where there is no such file, or none that is of use, they
all have their defaults. -/
inductive IsStored (s : Surroundings) (path : Bytes) : Settings → Prop
  | present {text settings} (read : s.read path = .ok (Text.encode text))
    (parsed : parse? text = some settings) : IsStored s path settings
  | absent {cause} (unread : s.read path = .error cause) : IsStored s path {}
  | malformed {text} (read : s.read path = .ok (Text.encode text))
    (refused : parse? text = none) : IsStored s path {}
  | undecodable {data} (read : s.read path = .ok data)
    (refused : Text.decode? data = none) : IsStored s path {}

theorem load_eq : load (m := ReaderM Surroundings) path s =
    match s.read path with
    | .error _ => {}
    | .ok data => ofBytes data := by
  have same : Host.read (m := ReaderM Surroundings) path s = s.read path := rfl
  rw [load, Surroundings.bind_apply, same]
  cases s.read path <;> rfl

theorem isStored_iff : IsStored s path settings ↔
    settings = load (m := ReaderM Surroundings) path s := by
  rw [load_eq]
  constructor
  · intro stored
    cases stored with
    | present read parsed => simp [read, ofBytes, Text.decode?_encode, parsed]
    | absent unread => simp [unread]
    | malformed read refused => simp [read, ofBytes, Text.decode?_encode, refused]
    | undecodable read refused => simp [read, ofBytes, refused]
  · rintro rfl
    cases read : s.read path with
    | error cause => exact .absent read
    | ok data =>
      cases decoded : Text.decode? data with
      | none =>
        simp only [ofBytes, decoded]
        exact .undecodable read decoded
      | some text =>
        obtain rfl := Text.decode?_eq_some_iff.1 decoded
        cases parsed : parse? text with
        | none =>
          simp only [ofBytes, decoded, Option.bind_some, parsed]
          exact .malformed read parsed
        | some settings =>
          simp only [ofBytes, decoded, Option.bind_some, parsed]
          exact .present read parsed

def withInterpreters (settings : Settings) (interpreters : List Text) : Settings :=
  { settings with
    interpreters := if interpreters = [] then settings.interpreters else interpreters }

end Settings

def Generator.withRoot (g : Generator) (root : Option Bytes) : Generator :=
  { g with source := { g.source with root := root.getD g.source.root } }

def Settings.run (settings : Settings) (root : Option Bytes) (script : ScriptPath)
    (distributable : Bool) (s : Surroundings) (conditions : Conditions) : Report × FileTree :=
  match settings.generator with
  | .error refusal => (.failed (.refused refusal), s.tree)
  | .ok g => (Task.generate (g.withRoot root) script distributable).run s conditions

theorem generator_override (i : Invocation) (settings : Settings) :
    (override i settings).generator = (settings.withInterpreters i.interpreters).generator.map
      (·.withRoot (i.runtime.map Text.throughText)) := by
  simp only [Settings.withInterpreters, override, Settings.generator, Settings.launcher,
    Settings.source, List.isEmpty_iff]
  cases i.runtime with
  | none => cases Launcher.make _ _ _ <;> rfl
  | some path => cases Launcher.make _ _ _ <;> rfl

namespace Task

variable {arguments : List Bytes} {i : Invocation} {s : Surroundings} {conditions : Conditions}

theorem run_of_regenerates {task : Task} {g : Generator} {script : ScriptPath}
    {distributable : Bool} (regenerates : task.Regenerates s g script distributable) :
    task.run s conditions = (Task.generate g script distributable).run s conditions := by
  have called : (Task.generate g script distributable).Regenerates s g script distributable := .call
  rw [Task.run, regenerates.report, Task.run, called.report]

theorem run_command_of_refused {refusal : Refusal} (parsed : Invocation.parse arguments = .ok i)
    (refused : settingsIn i s = .error refusal) :
    (Task.command arguments).run s conditions = (.failed (.refused refusal), s.tree) := by
  have report : (Task.command arguments).report (m := ReaderM Surroundings) s =
    .failed (.refused refusal) := run_of_refused parsed refused
  rw [Task.run, report]
  rfl

/-- A run by options is the run of the generator that the settings of the file make, with the
interpreters that are named, and with the runtime at the path that is given. -/
theorem run_command (parsed : Invocation.parse arguments = .ok i) (writes : i.command ≠ .inspect)
    {settings : Settings} (stored : settings.IsStored s (i.config.getD Settings.fileName)) :
    (Task.command arguments).run s conditions =
      (settings.withInterpreters i.interpreters).run (i.runtime.map Text.throughText)
        (.ofBytes i.script) (i.command == .dist) s conditions := by
  obtain rfl := Settings.isStored_iff.1 stored
  have settled : settingsIn i s = _ := generator_override i _
  unfold Settings.run
  cases made : (Settings.withInterpreters (Settings.load (m := ReaderM Surroundings)
      (i.config.getD Settings.fileName) s) i.interpreters).generator with
  | error refusal =>
    rw [made] at settled
    exact run_command_of_refused parsed settled
  | ok g =>
    rw [made] at settled
    exact run_of_regenerates (.command parsed writes settled)

theorem withRoot_throughText_iff (g : Generator) (root : Option Bytes) :
    g.withRoot (root.map Text.throughText) = g.withRoot root ↔
      ∀ path ∈ root, (Text.decode? path).isSome := by
  cases root with
  | none => exact ⟨fun _ => nofun, fun _ => rfl⟩
  | some path =>
    simp only [Generator.withRoot, Generator.mk.injEq, RuntimeSource.mk.injEq, Option.map_some,
      Option.getD_some, and_true, true_and, Text.throughText_eq_self_iff, Option.mem_some_iff,
      forall_eq']

/-- A run that makes a script start itself by the options of a command line comes to what the
settings of its file come to, be the file of use or not: with the interpreters that are named in
the place of those in the file, the script that is named, and the runtime at the path that is
given after it was kept as text. This is the run with the runtime at that very path if the path
is UTF-8, and only then have both the same generator. -/
theorem run_overridden (parsed : Invocation.parse arguments = .ok i) (writes : i.command ≠ .inspect)
    (s : Surroundings) (conditions : Conditions) :
    (∃ settings, Settings.IsStored s (i.config.getD Settings.fileName) settings) ∧
    ∀ settings, Settings.IsStored s (i.config.getD Settings.fileName) settings →
      let overridden := settings.withInterpreters i.interpreters
      (Task.command arguments).run s conditions =
        overridden.run (i.runtime.map Text.throughText) (.ofBytes i.script) (i.command == .dist) s
          conditions ∧
      ((∀ path ∈ i.runtime, (Text.decode? path).isSome) →
        (Task.command arguments).run s conditions =
          overridden.run i.runtime (.ofBytes i.script) (i.command == .dist) s conditions) ∧
      ∀ g, overridden.generator = .ok g →
        (g.withRoot (i.runtime.map Text.throughText) = g.withRoot i.runtime ↔
          ∀ path ∈ i.runtime, (Text.decode? path).isSome) := by
  refine ⟨⟨_, Settings.isStored_iff.2 rfl⟩, fun settings stored => ?_⟩
  have same : (Task.command arguments).run s conditions = _ := run_command parsed writes stored
  refine ⟨same, fun decodable => ?_, fun g _ => withRoot_throughText_iff g _⟩
  rw [same, Settings.run, Settings.run]
  cases (settings.withInterpreters i.interpreters).generator with
  | error => rfl
  | ok g =>
    have root := (withRoot_throughText_iff g _).2 decodable
    simp only [root]

/-- A module from a file, interpreters and a directory from the command line. -/
theorem run_overridden_named :
    let name (text : String) : Name := Text.encode text.toList
    let s : Surroundings := { tree := ⟨[([name "go"], .file 0o644 (name "go()\n")),
      ([name "pysh.toml"], .file 0o644 (name "runtime_module = \"tools\"\n")),
      ([name "rt"], .directory), ([name "rt", name "x.py"], .file 0o644 [])]⟩ }
    let arguments := ["-i", "py3", "dist", "--runtime", "rt", "go"].map name
    let i : Invocation := ⟨.dist, name "go", ["py3".toList], none, some (name "rt")⟩
    let settings : Settings := { runtimeModule := "tools".toList }
    Invocation.parse arguments = .ok i ∧ i.command ≠ .inspect ∧
      settings.IsStored s Settings.fileName ∧ ∀ conditions,
        (Task.command arguments).run s conditions =
          Settings.run { settings with interpreters := ["py3".toList] } (some (name "rt"))
            (.file (name "go")) true s conditions := by
  intro name s arguments i settings
  have parsed : Invocation.parse arguments = .ok i := eq_ok_of_toOption (by decide +kernel)
  have read : s.read Settings.fileName =
      .ok (Text.encode "runtime_module = \"tools\"\n".toList) :=
    eq_ok_of_toOption (by decide +kernel)
  have stored : settings.IsStored s Settings.fileName := .present read (by decide +kernel)
  refine ⟨parsed, nofun, stored, fun conditions => ?_⟩
  obtain ⟨_, overridden⟩ := run_overridden parsed nofun s conditions
  exact (overridden settings stored).2.1 (by decide +kernel)

/-- A runtime in a directory whose name is not UTF-8 is not found, though it is there. -/
theorem run_overridden_undecodable :
    let name (text : String) : Name := Text.encode text.toList
    let root : Name := name "rt" ++ [0xFF]
    let s : Surroundings := { tree := ⟨[([name "go"], .file 0o644 (name "go()\n")),
      ([root], .directory), ([root, name "x.py"], .file 0o644 (name "x = 1\n"))]⟩ }
    let arguments := [name "dist", name "--runtime", root, name "go"]
    Invocation.parse arguments = .ok ⟨.dist, name "go", [], none, some root⟩ ∧
      Settings.IsStored s Settings.fileName {} ∧
      (Task.command arguments).run s {} =
        (.failed (.unreadableSources ⟨name "rt\ufffd", .notFound⟩), s.tree) ∧
      (Settings.run (Settings.withInterpreters {} []) (some root) (.file (name "go")) true s
        {}).1.status = 0 := by
  intro name root s arguments
  have parsed : Invocation.parse arguments = .ok ⟨.dist, name "go", [], none, some root⟩ :=
    eq_ok_of_toOption (by decide +kernel)
  have unread : s.read Settings.fileName = .error .notFound := rfl
  have run : (Task.command arguments).run s {} =
      (.failed (.unreadableSources ⟨name "rt\ufffd", .notFound⟩), s.tree) := by decide +kernel
  exact ⟨parsed, .absent unread, run, by decide +kernel⟩

end Task
end Bootscript
