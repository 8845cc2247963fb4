import Mathlib.Tactic.Common
import Bootscript.Command.Arguments
import Bootscript.Proofs.Generator
import Bootscript.Proofs.Utf8

/-! What command lines can ask for: every command with any interpreters, any script and any
paths that are not empty, and nothing else. Whatever the bytes of a value are, it can be given
behind the equals sign of its option. -/
namespace Bootscript.Command

structure Invocation.IsPossible (i : Invocation) : Prop where
  script : i.script ≠ []
  config : ∀ path ∈ i.config, path ≠ []
  runtime : ∀ path ∈ i.runtime, path ≠ [] ∧ i.command = .dist

section Written

def Name.word : Name → Bytes
  | .gen => Text.encode "gen".toList
  | .dist => Text.encode "dist".toList
  | .inspect => Text.encode "inspect".toList

def Setting.word : Setting → Bytes
  | .interpreter => Text.encode "interpreter".toList
  | .config => Text.encode "config".toList
  | .runtime => Text.encode "runtime".toList

def Setting.option (setting : Setting) (value : Bytes) : Bytes :=
  dash :: dash :: setting.word ++ equals :: value

/-- A command line for an invocation. The script stands behind the end of the options. -/
def Invocation.arguments (i : Invocation) : List Bytes :=
  i.interpreters.map (fun name => Setting.interpreter.option name.encode) ++
    (i.config.toList.map Setting.config.option ++
      i.command.word :: (i.runtime.toList.map Setting.runtime.option ++ [[dash, dash], i.script]))

theorem token_option (setting : Setting) (value : Bytes) :
    Token.ofBytes (setting.option value) = .long setting.word (some value) := by
  cases setting <;> rfl

namespace Reading

variable {r r' : Reading} {rest : List Bytes}

theorem feedAll_of_feed {argument : Bytes} (other : r.asksHelp argument = false)
    (fed : r.feed argument = .ok r') : r.feedAll (argument :: rest) = r'.feedAll rest := by
  rw [feedAll, other, if_neg Bool.false_ne_true, fed]
  rfl

theorem feedAll_option {setting : Setting} {value : Bytes} (within : r.escaped = false)
    (free : r.awaiting = none) (known : long? r.command setting.word = some (.setting setting))
    (assigned : r.assign setting value = .ok r') :
    r.feedAll (setting.option value :: rest) = r'.feedAll rest := by
  apply feedAll_of_feed
  · rw [asksHelp, show (setting.option value == helpWord) = false from rfl, Bool.and_false]
  · rw [feed, within, if_neg Bool.false_ne_true, free, token_option]
    simp only [known, assigned]

theorem feedAll_interpreters (before names : List Text) :
    feedAll { outer := { interpreters := before } }
        (names.map (fun name => Setting.interpreter.option name.encode) ++ rest) =
      feedAll { outer := { interpreters := before ++ names } } rest := by
  induction names generalizing before with
  | nil => rw [List.map_nil, List.nil_append, List.append_nil]
  | cons name names ih =>
    have assigned :
        Reading.assign { outer := { interpreters := before } } .interpreter name.encode =
          .ok { outer := { interpreters := before ++ [name] } } := by
      simp only [Reading.assign, Level.assign, Text.decode?_encode]
      rfl
    rw [List.map_cons, List.cons_append, feedAll_option rfl rfl rfl assigned, ih,
      List.append_assoc, List.singleton_append]

theorem once_none {path : Bytes} (nonempty : path ≠ []) : once none path = .ok (some path) := by
  rw [once, Option.isSome_none, Bool.false_or, if_neg (by simpa using nonempty)]

theorem feedAll_config {interpreters : List Text} {config : Option Bytes}
    (nonempty : ∀ path ∈ config, path ≠ []) :
    feedAll { outer := { interpreters } } (config.toList.map Setting.config.option ++ rest) =
      feedAll { outer := { interpreters, config } } rest := by
  cases config with
  | none => rfl
  | some path =>
    have assigned : Reading.assign { outer := { interpreters } } .config path =
        .ok { outer := { interpreters, config := some path } } := by
      simp only [Reading.assign, Level.assign, once_none (nonempty path rfl)]
      rfl
    exact feedAll_option rfl rfl rfl assigned

theorem feedAll_command {outer : Level} (command : Name) :
    feedAll { outer } (command.word :: rest) = feedAll { outer, command := some command } rest := by
  cases command <;> exact feedAll_of_feed rfl rfl

theorem feedAll_runtime {outer : Level} {command : Name} {runtime : Option Bytes}
    (possible : ∀ path ∈ runtime, path ≠ [] ∧ command = .dist) :
    feedAll { outer, command := some command }
        (runtime.toList.map Setting.runtime.option ++ rest) =
      feedAll { outer, command := some command, inner := { runtime } } rest := by
  cases runtime with
  | none => rfl
  | some path =>
    obtain ⟨nonempty, rfl⟩ := possible path rfl
    have assigned : Reading.assign { outer, command := some .dist } .runtime path =
        .ok { outer, command := some .dist, inner := { runtime := some path } } := by
      simp only [Reading.assign, Level.assign, once_none nonempty]
      rfl
    exact feedAll_option rfl rfl rfl assigned

theorem feedAll_script {outer inner : Level} {command : Name} {script : Bytes}
    (nonempty : script ≠ []) (fresh : inner.script = none) :
    feedAll { outer, command := some command, inner } [[dash, dash], script] =
      .ok { outer, command := some command, inner := { inner with script := some script },
            escaped := true } := by
  have escape : feed { outer, command := some command, inner } [dash, dash] =
      .ok { outer, command := some command, inner, escaped := true } := rfl
  rw [feedAll_of_feed rfl escape]
  apply feedAll_of_feed rfl
  simp only [feed, word, fresh, once_none nonempty, ↓reduceIte]
  rfl

end Reading

/-- Every invocation that is possible can be asked for. -/
theorem Invocation.parse_arguments {i : Invocation} (possible : i.IsPossible) :
    Invocation.parse i.arguments = .ok i := by
  obtain ⟨command, script, interpreters, config, runtime⟩ := i
  have read : Reading.feedAll {}
      (Invocation.arguments ⟨command, script, interpreters, config, runtime⟩) =
      .ok { outer := { interpreters, config }, command := some command,
            inner := { runtime := runtime, script := some script }, escaped := true } := by
    rw [Invocation.arguments, Reading.feedAll_interpreters, Reading.feedAll_config possible.config,
      Reading.feedAll_command, Reading.feedAll_runtime possible.runtime,
      Reading.feedAll_script possible.script rfl, List.nil_append]
  rw [Invocation.parse, read]
  rfl

end Written

section Read

structure Level.HasPaths (level : Level) : Prop where
  script : ∀ path ∈ level.script, path ≠ []
  config : ∀ path ∈ level.config, path ≠ []
  runtime : ∀ path ∈ level.runtime, path ≠ []

/-- The computation that a value comes from, if it went well. -/
theorem nonempty_of_once {old new : Option Bytes} {path : Bytes} (set : once old path = .ok new) :
    ∀ other ∈ new, other ≠ [] := by
  unfold once at set
  split at set
  · cases set
  · rename_i fresh
    cases set
    rintro _ ⟨⟩ rfl
    exact fresh (by rw [List.isEmpty_nil, Bool.or_true])

theorem Level.HasPaths.assign {level level' : Level} (paths : level.HasPaths) {setting : Setting}
    {value : Bytes} (assigned : level.assign setting value = .ok level') :
    level'.HasPaths ∧ (setting ≠ .runtime → level'.runtime = level.runtime) := by
  cases setting with
  | interpreter =>
    simp only [Level.assign] at assigned
    split at assigned
    · cases assigned
    · cases assigned
      exact ⟨⟨paths.script, paths.config, paths.runtime⟩, fun _ => rfl⟩
  | config =>
    obtain ⟨config, set, rfl⟩ := map_eq_ok_iff.1 assigned
    exact ⟨⟨paths.script, nonempty_of_once set, paths.runtime⟩, fun _ => rfl⟩
  | runtime =>
    obtain ⟨runtime, set, rfl⟩ := map_eq_ok_iff.1 assigned
    exact ⟨⟨paths.script, paths.config, nonempty_of_once set⟩, fun other => absurd rfl other⟩

theorem long?_runtime {command : Option Name} {name : Bytes}
    (known : long? command name = some (.setting .runtime)) : command = some .dist := by
  by_contra other
  have absent : ¬(name = Text.encode "runtime".toList ∧ command = some .dist) :=
    fun both => other both.2
  unfold long? at known
  rw [if_neg absent] at known
  split_ifs at known <;> cases known

theorem short?_ne_runtime (command : Option Name) (letter : UInt8) :
    short? command letter ≠ some (.setting .runtime) := by
  unfold short?
  split_ifs <;> nofun

namespace Reading

structure IsSound (r : Reading) : Prop where
  outer : r.outer.HasPaths
  inner : r.inner.HasPaths
  runtime : r.inner.runtime ≠ none → r.command = some .dist
  awaiting : r.awaiting = some .runtime → r.command = some .dist

theorem isSound_empty : IsSound {} where
  outer := ⟨nofun, nofun, nofun⟩
  inner := ⟨nofun, nofun, nofun⟩
  runtime := fun some => absurd rfl some
  awaiting := nofun

variable {r r' : Reading} (sound : r.IsSound)
include sound

theorem IsSound.assign {setting : Setting} {value : Bytes}
    (allowed : setting = .runtime → r.command = some .dist)
    (assigned : r.assign setting value = .ok r') : r'.IsSound := by
  unfold Reading.assign at assigned
  split at assigned
  · obtain ⟨outer, set, rfl⟩ := map_eq_ok_iff.1 assigned
    exact ⟨(sound.outer.assign set).1, sound.inner, sound.runtime, sound.awaiting⟩
  · obtain ⟨inner, set, rfl⟩ := map_eq_ok_iff.1 assigned
    obtain ⟨paths, same⟩ := sound.inner.assign set
    refine ⟨sound.outer, paths, fun some => ?_, sound.awaiting⟩
    by_cases runtime : setting = .runtime
    · exact allowed runtime
    · exact sound.runtime (same runtime ▸ some)

theorem IsSound.cluster {letters : Bytes} (read : r.cluster letters = .ok r') : r'.IsSound := by
  induction letters with
  | nil => cases read; exact sound
  | cons letter rest ih =>
    unfold Reading.cluster at read
    split at read
    · cases read
    · rename_i s _
      cases s with
      | verbose => exact ih read
      | version => cases read
      | help => cases read
    · rename_i s known
      have other : s ≠ .runtime := by
        rintro rfl
        exact short?_ne_runtime _ _ known
      cases rest with
      | nil =>
        cases read
        exact ⟨sound.outer, sound.inner, sound.runtime, fun awaited =>
          absurd (Option.some.inj awaited) other⟩
      | cons first value => exact sound.assign (fun runtime => absurd runtime other) read

theorem IsSound.word {argument : Bytes} (read : r.word argument = .ok r') : r'.IsSound := by
  unfold Reading.word at read
  split at read
  · rename_i none
    have noRuntime : r.inner.runtime = Option.none :=
      Decidable.byContradiction fun some => nomatch none.symm.trans (sound.runtime some)
    have free : r.awaiting ≠ some .runtime := by
      intro awaited
      cases none.symm.trans (sound.awaiting awaited)
    split at read
    · cases read
    split at read
    · cases read
      exact ⟨sound.outer, sound.inner, fun some => absurd noRuntime some,
        fun awaited => absurd awaited free⟩
    · cases read
  · obtain ⟨script, set, rfl⟩ := map_eq_ok_iff.1 read
    exact ⟨sound.outer, ⟨nonempty_of_once set, sound.inner.config, sound.inner.runtime⟩,
      sound.runtime, sound.awaiting⟩

theorem IsSound.feed {argument : Bytes} (read : r.feed argument = .ok r') : r'.IsSound := by
  unfold Reading.feed at read
  split at read
  · exact sound.word read
  split at read
  · rename_i s awaited _
    have free : IsSound { r with awaiting := none } :=
      ⟨sound.outer, sound.inner, sound.runtime, nofun⟩
    refine free.assign (fun runtime => ?_) read
    exact sound.awaiting (runtime ▸ awaited)
  · cases read
  · exact sound.word read
  · cases read
    exact ⟨sound.outer, sound.inner, sound.runtime, sound.awaiting⟩
  · exact sound.cluster read
  · split at read
    · rename_i known _
      exact sound.assign (fun runtime => long?_runtime (runtime ▸ known)) read
    · rename_i known _
      cases read
      exact ⟨sound.outer, sound.inner, sound.runtime, fun awaited =>
        long?_runtime (Option.some.inj awaited ▸ known)⟩
    · rename_i s _ _
      cases s with
      | verbose => cases read; exact sound
      | version => cases read
      | help => cases read
    · cases read

theorem IsSound.feedAll {arguments : List Bytes} (read : r.feedAll arguments = .ok r') :
    r'.IsSound := by
  induction arguments generalizing r with
  | nil => cases read; exact sound
  | cons argument rest ih =>
    unfold Reading.feedAll at read
    split at read
    · cases read
    · obtain ⟨next, fed, read⟩ := exists_of_bind_eq_ok read
      exact ih (sound.feed fed) read

end Reading

theorem Invocation.isPossible_of_parse {arguments : List Bytes} {i : Invocation}
    (parsed : Invocation.parse arguments = .ok i) : i.IsPossible := by
  obtain ⟨r, read, parsed⟩ := exists_of_bind_eq_ok parsed
  have sound := Reading.isSound_empty.feedAll read
  unfold Invocation.ofReading at parsed
  split at parsed
  · rename_i command script named given _
    cases parsed
    refine ⟨sound.inner.script _ given, fun path given => ?_,
      fun path given => ⟨sound.inner.runtime _ given, ?_⟩⟩
    · change (r.inner.config <|> r.outer.config) = some path at given
      cases inner : r.inner.config with
      | none =>
        rw [inner] at given
        exact sound.outer.config _ given
      | some other =>
        rw [inner] at given
        cases given
        exact sound.inner.config _ inner
    · change r.inner.runtime = some path at given
      have some : r.inner.runtime ≠ none := by rw [given]; nofun
      exact Option.some.inj (named.symm.trans (sound.runtime some))
  · cases parsed

end Read

/-- The invocations that command lines ask for are the possible ones. -/
theorem Invocation.exists_parse_iff (i : Invocation) :
    (∃ arguments, Invocation.parse arguments = .ok i) ↔ i.IsPossible :=
  ⟨fun ⟨_, parsed⟩ => isPossible_of_parse parsed, fun possible => ⟨_, parse_arguments possible⟩⟩

end Bootscript.Command
