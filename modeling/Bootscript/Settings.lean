import Bootscript.Generator
import Bootscript.Toml.Parser

/-! The settings of a user: which interpreters to try, which runtime to import and where
its sources are. A setting that the file does not name has its default; a file that
cannot be used counts as one that names none. -/
namespace Bootscript

structure Settings where
  interpreters : List Text := Launcher.defaultInterpreters
  runtimeModule : Text := Launcher.defaultModule
  runtimeDirectory : Text := Launcher.defaultModule
  runtimeExtensions : List Text := ["py".toList]
  hint : Text := Launcher.defaultHint
  deriving DecidableEq, Repr

namespace Settings

def fileName : Bytes := Text.encode "pysh.toml".toList

def text? (entries : Toml.Entries) (key : String) (default : Text) : Option Text :=
  match entries.lookup key.toList with
  | none => some default
  | some (.string text) => some text
  | some _ => none

def strings? : List Toml.Item → Option (List Text)
  | [] => some []
  | .string text :: rest => (strings? rest).map (text :: ·)
  | _ :: _ => none

def texts? (entries : Toml.Entries) (key : String) (default : List Text) : Option (List Text) :=
  match entries.lookup key.toList with
  | none => some default
  | some (.array items) => strings? items
  | some _ => none

/-- Keys that mean nothing here are passed over; a known key of the wrong type is not. -/
def parse? (text : Text) : Option Settings := do
  let entries ← Toml.parse? text
  let standard : Settings := {}
  return {
    interpreters := ← texts? entries "interpreters" standard.interpreters
    runtimeModule := ← text? entries "runtime_module" standard.runtimeModule
    runtimeDirectory := ← text? entries "runtime_dir" standard.runtimeDirectory
    runtimeExtensions := ← texts? entries "runtime_extensions" standard.runtimeExtensions
    hint := ← text? entries "install_hint" standard.hint }

def ofBytes (data : Bytes) : Settings := ((Text.decode? data).bind parse?).getD {}

def load {m : Type → Type} [Monad m] [Host m] (path : Bytes) : m Settings := do
  match ← Host.read path with
  | .error _ => return {}
  | .ok data => return ofBytes data

def launcher (s : Settings) : Except Refusal Launcher :=
  Launcher.make s.interpreters s.runtimeModule s.hint

def source (s : Settings) : RuntimeSource :=
  ⟨s.runtimeDirectory.encode, s.runtimeModule, s.runtimeExtensions⟩

def generator (s : Settings) : Except Refusal Generator :=
  s.launcher.map fun launcher => { launcher, source := s.source }

end Settings
end Bootscript
