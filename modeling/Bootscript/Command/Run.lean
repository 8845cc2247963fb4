import Bootscript.Command.Arguments
import Bootscript.FileTree.Volume
import Bootscript.Script.Outline
import Bootscript.Settings

/-! A run of the command line: its exit status, what it prints and the file it writes. The
report is made without changing anything, and carried out at the end. -/
namespace Bootscript
namespace Command

structure Report where
  status : Nat
  output : Bytes := []
  complaint : Option String := none
  replacement : Option Replacement := none
  deriving DecidableEq, Repr

namespace Report

def usage : Report := { status := 2 }

def version : Report := { status := 0, output := Text.encode "pysh 0.1.0\n".toList }

def ofStop (help : Text) : Stop → Report
  | .usage => usage
  | .version => version
  | .help => { status := 0, output := help.encode }

def failed (failure : Failure) : Report := { status := 1, complaint := some failure.message }

def ofResult : Except Failure Product → Report
  | .error failure => failed failure
  | .ok p => { status := 0, output := p.output, replacement := p.replacement }

/-- Carries a report out. A file that cannot be written makes the run a failure. -/
def carryOut {m : Type → Type} {Handle : Type} [Monad m] [Disk m Handle] (report : Report) :
    m Report := do
  match report.replacement with
  | none => return report
  | some r =>
    match ← r.commit with
    | .ok () => return report
    | .error cause => return .failed (.os cause)

end Report

/-- Interpreters and the runtime directory given as options win over the settings. The
directory becomes text there; bytes that are not UTF-8 are replaced. -/
def override (i : Invocation) (s : Settings) : Settings where
  interpreters := if i.interpreters.isEmpty then s.interpreters else i.interpreters
  runtimeModule := s.runtimeModule
  runtimeDirectory := (i.runtime.map Text.decodeLossy).getD s.runtimeDirectory
  runtimeExtensions := s.runtimeExtensions
  hint := s.hint

variable {m : Type → Type} [Monad m] [Host m]

/-- Settings are checked before the script is looked at. -/
def Invocation.run (i : Invocation) : m Report := do
  let settings ← Settings.load (i.config.getD Settings.fileName)
  match (override i settings).generator with
  | .error refusal => return .failed (.refused refusal)
  | .ok generator =>
    let path := ScriptPath.ofBytes i.script
    match i.command with
    | .gen => return .ofResult (← generator.generate path false)
    | .dist => return .ofResult (← generator.generate path true)
    | .inspect =>
      match ← generator.read path with
      | .error failure => return .failed failure
      | .ok script => return { status := 0, output := Text.encode (script.outline ++ ['\n']) }

def run (arguments : List Bytes) : m Report :=
  match Invocation.parse arguments with
  | .error stop => return .ofStop (← Host.help arguments) stop
  | .ok invocation => invocation.run

end Command

/-- One use of the program: a command line, or a call of the library. -/
inductive Task where
  | command (arguments : List Bytes)
  | generate (g : Generator) (script : ScriptPath) (distributable : Bool)
  | read (g : Generator) (script : ScriptPath)

namespace Task

open Command

/-- A call that fails reports the failure, and one that does not prints nothing of itself. -/
def report {m : Type → Type} [Monad m] [Host m] : Task → m Report
  | command arguments => Command.run arguments
  | generate g script distributable => return .ofResult (← g.generate script distributable)
  | read g script => return .ofResult ((← g.read script).map fun _ => {})

def run (task : Task) (s : Surroundings) (conditions : Conditions) : Report × FileTree :=
  let planned : Report := (task.report : ReaderM Surroundings Report) s
  let (report, volume) := (planned.carryOut : StateM Volume Report) ⟨s.tree, s.working, conditions⟩
  (report, volume.tree)

end Task

/-- A run of the command line that nothing stands in the way of. -/
def Surroundings.run (s : Surroundings) (arguments : List Bytes) : Command.Report × FileTree :=
  (Task.command arguments).run s {}

end Bootscript
