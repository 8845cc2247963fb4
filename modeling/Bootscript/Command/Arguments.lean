import Bootscript.Text

/-! The grammar of the command line. Options may stand before and after the name of the
command, and those after it win; `--` ends the options of a command. -/
namespace Bootscript.Command

inductive Name where
  | gen
  | dist
  | inspect
  deriving DecidableEq, Repr

def Name.ofBytes? (word : Bytes) : Option Name :=
  if word = Text.encode "gen".toList then some .gen
  else if word = Text.encode "dist".toList then some .dist
  else if word = Text.encode "inspect".toList then some .inspect
  else none

inductive Setting where
  | interpreter
  | config
  | runtime
  deriving DecidableEq, Repr

inductive Switch where
  | verbose
  | version
  | help
  deriving DecidableEq, Repr

/-- What an option does, in front of any command or behind the one that is given. -/
inductive Meaning where
  | setting (s : Setting)
  | switch (s : Switch)
  deriving DecidableEq, Repr

/-- Only the program itself has a version, and only `dist` embeds a runtime. -/
def long? (command : Option Name) (name : Bytes) : Option Meaning :=
  if name = Text.encode "verbose".toList then some (.switch .verbose)
  else if name = Text.encode "help".toList then some (.switch .help)
  else if name = Text.encode "config".toList then some (.setting .config)
  else if name = Text.encode "interpreter".toList then some (.setting .interpreter)
  else if name = Text.encode "version".toList ∧ command = none then some (.switch .version)
  else if name = Text.encode "runtime".toList ∧ command = some .dist then some (.setting .runtime)
  else none

def short? (command : Option Name) (letter : UInt8) : Option Meaning :=
  if letter = 'v'.toUInt8 then some (.switch .verbose)
  else if letter = 'h'.toUInt8 then some (.switch .help)
  else if letter = 'i'.toUInt8 then some (.setting .interpreter)
  else if letter = 'V'.toUInt8 ∧ command = none then some (.switch .version)
  else none

/-- How an argument reads. A single dash is a word. -/
inductive Token where
  | escape
  | long (name : Bytes) (value : Option Bytes)
  | cluster (letters : Bytes)
  | word
  deriving DecidableEq, Repr

def dash : UInt8 := '-'.toUInt8
def equals : UInt8 := '='.toUInt8

def Token.ofBytes (argument : Bytes) : Token :=
  match argument with
  | first :: rest =>
    if first = dash then
      match rest with
      | [] => .word
      | second :: name =>
        if second = dash then
          if name.isEmpty then .escape
          else
            let key := name.takeWhile (· ≠ equals)
            .long key (name[key.length]?.map fun _ => name.drop (key.length + 1))
        else .cluster rest
    else .word
  | [] => .word

structure Level where
  interpreters : List Text := []
  config : Option Bytes := none
  runtime : Option Bytes := none
  script : Option Bytes := none
  deriving DecidableEq, Repr

inductive Stop where
  | usage
  | version
  | help
  deriving DecidableEq, Repr

/-- Sets what may be set once. Paths are not empty. -/
def once (old : Option Bytes) (path : Bytes) : Except Stop (Option Bytes) :=
  if old.isSome || path.isEmpty then .error .usage else .ok (some path)

def Level.assign (level : Level) (setting : Setting) (value : Bytes) : Except Stop Level :=
  match setting with
  | .interpreter =>
    match Text.decode? value with
    | none => .error .usage
    | some name => .ok { level with interpreters := level.interpreters ++ [name] }
  | .config => (once level.config value).map fun config => { level with config }
  | .runtime => (once level.runtime value).map fun runtime => { level with runtime }

/-- `awaiting` is the option whose value is the next argument. -/
structure Reading where
  outer : Level := {}
  command : Option Name := none
  inner : Level := {}
  awaiting : Option Setting := none
  escaped : Bool := false
  deriving DecidableEq, Repr

namespace Reading

def assign (r : Reading) (setting : Setting) (value : Bytes) : Except Stop Reading :=
  match r.command with
  | none => (r.outer.assign setting value).map fun outer => { r with outer }
  | some _ => (r.inner.assign setting value).map fun inner => { r with inner }

def flip (r : Reading) : Switch → Except Stop Reading
  | .verbose => .ok r
  | .version => .error .version
  | .help => .error .help

/-- Letters after one dash. The rest of the letters is the value of an option that takes
one, and if there are none left, the next argument is. -/
def cluster (r : Reading) : Bytes → Except Stop Reading
  | [] => .ok r
  | letter :: rest =>
    match short? r.command letter with
    | none => .error .usage
    | some (.switch s) => do cluster (← r.flip s) rest
    | some (.setting s) =>
      match rest with
      | [] => .ok { r with awaiting := some s }
      | first :: value => r.assign s (if first = equals then value else rest)

def word (r : Reading) (argument : Bytes) : Except Stop Reading :=
  match r.command with
  | none =>
    if r.escaped then .error .usage
    else
      match Name.ofBytes? argument with
      | some name => .ok { r with command := some name }
      | none => .error .usage
  | some _ =>
    (once r.inner.script argument).map fun script => { r with inner := { r.inner with script } }

def feed (r : Reading) (argument : Bytes) : Except Stop Reading :=
  if r.escaped then r.word argument
  else
    match r.awaiting, Token.ofBytes argument with
    | some s, .word => { r with awaiting := none }.assign s argument
    | some _, _ => .error .usage
    | none, .word => r.word argument
    | none, .escape => .ok { r with escaped := true }
    | none, .cluster letters => r.cluster letters
    | none, .long name value =>
      match long? r.command name, value with
      | some (.setting s), some value => r.assign s value
      | some (.setting s), none => .ok { r with awaiting := some s }
      | some (.switch s), none => r.flip s
      | _, _ => .error .usage

def helpWord : Bytes := Text.encode "help".toList

def asksHelp (r : Reading) (argument : Bytes) : Bool :=
  r.command.isNone && r.awaiting.isNone && !r.escaped && argument == helpWord

/-- Help takes the name of one command, which may be its own. -/
def helpStop : List Bytes → Stop
  | [] => .help
  | [topic] => if (Name.ofBytes? topic).isSome || topic == helpWord then .help else .usage
  | _ => .usage

def feedAll (r : Reading) : List Bytes → Except Stop Reading
  | [] => .ok r
  | argument :: rest =>
    if r.asksHelp argument then .error (helpStop rest)
    else do feedAll (← r.feed argument) rest

end Reading

structure Invocation where
  command : Name
  script : Bytes
  interpreters : List Text
  config : Option Bytes
  runtime : Option Bytes
  deriving DecidableEq, Repr

/-- Interpreters named behind the command replace those named in front of it. -/
def Invocation.ofReading (r : Reading) : Except Stop Invocation :=
  match r.command, r.inner.script, r.awaiting with
  | some command, some script, none => .ok {
      command, script
      interpreters :=
        if r.inner.interpreters.isEmpty then r.outer.interpreters else r.inner.interpreters
      config := r.inner.config <|> r.outer.config
      runtime := r.inner.runtime }
  | _, _, _ => .error .usage

def Invocation.parse (arguments : List Bytes) : Except Stop Invocation :=
  Reading.feedAll {} arguments >>= Invocation.ofReading

end Bootscript.Command
