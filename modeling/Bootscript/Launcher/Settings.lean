import Bootscript.Text.Quoted

/-! The values that a launcher is made of. They are pasted into shell and Python text
without quotes around them, so only values that mean themselves there are accepted. -/
namespace Bootscript

inductive LauncherSetting where
  | interpreters
  | interpreter
  | runtimeModule
  | hint
  deriving DecidableEq, Repr

namespace LauncherSetting

def label : LauncherSetting → String
  | interpreters => "interpreters"
  | interpreter => "interpreter"
  | runtimeModule => "runtime module"
  | hint => "install hint"

/-- What an accepted value looks like. -/
def requirement : LauncherSetting → String
  | interpreters => "at least one interpreter is required"
  | interpreter => "expected a command name or path made of letters, digits and ._/+-"
  | runtimeModule => "expected a dotted Python identifier"
  | hint => "must not contain quotes, backquotes, backslashes or line breaks"

end LauncherSetting

/-- The first setting that cannot be pasted, with its value. -/
structure Refusal where
  setting : LauncherSetting
  value : Text
  deriving DecidableEq, Repr

def Refusal.message (r : Refusal) : String :=
  "invalid " ++ r.setting.label ++ " " ++ String.ofList r.value.quoted ++ ": " ++ r.setting.requirement

namespace Launcher

def isCommandChar (c : Char) : Bool := c.isAlphanum || ['.', '_', '/', '+', '-'].contains c

/-- A command name or path that the shell takes for neither an option nor anything to expand. -/
def isCommand : Text → Bool
  | [] => false
  | c :: rest => isCommandChar c && c != '-' && rest.all isCommandChar

def isIdentifier : Text → Bool
  | [] => false
  | c :: rest => (c.isAlpha || c == '_') && rest.all fun d => d.isAlphanum || d == '_'

/-- Identifiers joined by single dots. -/
def isModule (name : Text) : Bool := (split '.' name).all isIdentifier

/-- Characters that would end a double-quoted word or start an escape or a substitution
in it, and line breaks. -/
def hintExcluded : List Char := ['"', '\x60', '\\', '\n', '\r']

def isHint (hint : Text) : Bool := hint.all fun c => !hintExcluded.contains c

/-- Checks the list, then its members in order, then the module, then the hint. -/
def refusal? (interpreters : List Text) (runtimeModule hint : Text) : Option Refusal :=
  if interpreters.isEmpty then some ⟨.interpreters, []⟩
  else
    match interpreters.find? fun name => !isCommand name with
    | some name => some ⟨.interpreter, name⟩
    | none =>
      if !isModule runtimeModule then some ⟨.runtimeModule, runtimeModule⟩
      else if !isHint hint then some ⟨.hint, hint⟩
      else none

def defaultInterpreters : List Text := ["python3".toList, "python".toList]
def defaultModule : Text := "pysh".toList
def defaultHint : Text := "pip install https://github.com/areusch/pysh/archive/master.zip".toList

end Launcher

/-- Accepted settings: interpreters to try in order, the module to import and the
command to show when no interpreter can import it. -/
structure Launcher where
  interpreters : List Text
  runtimeModule : Text
  hint : Text
  accepted : Launcher.refusal? interpreters runtimeModule hint = none
  deriving DecidableEq, Repr

namespace Launcher

def make (interpreters : List Text) (runtimeModule hint : Text) : Except Refusal Launcher :=
  match h : refusal? interpreters runtimeModule hint with
  | some refusal => .error refusal
  | none => .ok ⟨interpreters, runtimeModule, hint, h⟩

def standard : Launcher := ⟨defaultInterpreters, defaultModule, defaultHint, by decide⟩

end Launcher
end Bootscript
