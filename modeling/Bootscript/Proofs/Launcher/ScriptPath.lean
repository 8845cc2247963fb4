import Bootscript.Proofs.Launcher.Evaluation
import Bootscript.Proofs.Python.Quoted
import Bootscript.Proofs.Shell.Around

/-! The path of the script on its way to Python. The program has it in quotes, and nothing escapes
it for `printf` or for Python. A path without a special character gets through both of them. One
without backslashes does so only then, and with a backslash it comes out shorter. -/
namespace Bootscript

namespace Python

variable {names : Text → Option Char} {path first : Text} {parts : List Text}

/-- A program that is the given one but for its mentions of the script, each of which is a literal
that stands for the path. -/
def IsFilled (names : Text → Option Char) (path : Text) : Text → List Text → Text → Prop
  | first, [], text => text = first
  | first, next :: parts, text => ∃ behind after, text = first ++ behind ∧
      string? names behind = some (path, after) ∧ IsFilled names path next parts after

theorem isFilled_around (clear : ∀ c ∈ path, c ∉ special) (nonempty : path ≠ []) :
    IsFilled names path first parts (Text.around path first parts) := by
  induction parts generalizing first with
  | nil => exact Text.around_nil path first
  | cons next parts ih =>
    exact ⟨_, _, Text.around_cons path first next parts, string?_append clear nonempty _, ih⟩

theorem clear_of_isFilled_around (noBackslash : '\\' ∉ path) (mentioned : parts ≠ [])
    (filled : IsFilled names path first parts (Text.around path first parts)) :
    ∀ c ∈ path, c ∉ special := by
  obtain ⟨next, parts, rfl⟩ := List.exists_cons_of_ne_nil mentioned
  obtain ⟨behind, after, parted, read, _⟩ := filled
  rw [Text.around_cons] at parted
  obtain rfl := List.append_cancel_left parted
  exact clear_of_quoted? noBackslash (quoted?_of_string? read)

/-- A literal takes as many bytes as the string that it stands for at least. -/
theorem length_around_le {text : Text} (filled : IsFilled names path first parts text) :
    (Text.around path first parts).encode.length ≤ text.encode.length := by
  induction parts generalizing first text with
  | nil =>
    obtain rfl : text = first := filled
    simp
  | cons next parts ih =>
    obtain ⟨behind, after, rfl, read, filled⟩ := filled
    have later := ih filled
    have literal := length_string? read
    rw [Text.length_around_cons, Text.encode_append, List.length_append]
    omega

end Python

namespace Text

theorem isCode_of_around {path first : Text} {parts : List Text}
    (code : (around path first parts).IsCode) : ∀ part ∈ first :: parts, part.IsCode := by
  induction parts generalizing first with
  | nil => simpa using code
  | cons next parts ih =>
    rw [around_cons] at code
    obtain ⟨front, code⟩ := code.of_append (by decide)
    exact List.forall_mem_cons.2 ⟨front, ih (code.of_append (by decide)).2⟩

end Text

namespace Launcher

section Path

variable (l : Launcher) (distributable : Bool)

theorem program_eq_around : l.program distributable =
    Text.around ['$', '0'] (l.opening distributable) (l.remainders distributable) :=
  l.program_eq distributable

theorem isLayered_of_mem_parts : ∀ part ∈ l.opening distributable :: l.remainders distributable,
    ∀ piece ∈ Text.pieces part, piece.IsLayered := by
  have code := l.isCode_program distributable
  rw [program_eq_around] at code
  exact fun part member piece inside =>
    isLayered_of_isCode (Text.isCode_of_around code part member piece inside)

/-- The argument of `printf`: the program with the path in it, escaped for `printf` but for the
path. -/
def argument (path : Text) : Text :=
  Text.around path ((l.opening distributable).rewritten Piece.printed)
    ((l.remainders distributable).map (Text.rewritten Piece.printed))

theorem programRead_eq : l.programRead distributable =
    Text.around ['$', '0'] ((l.opening distributable).rewritten Piece.evaluated)
      ((l.remainders distributable).map (Text.rewritten Piece.evaluated)) := by
  have code := l.isCode_program distributable
  rw [program_eq_around] at code
  have whole : ∀ part ∈ l.opening distributable :: l.remainders distributable, part.IsWhole :=
    fun part member => (Text.isCode_of_around code part member).isWhole
  have alone : ∀ c ∈ ['\'', '$', '0'], (Piece.plain c).evaluated = [c] := by simp [Piece.evaluated]
  rw [programRead, programValue_eq,
    Shell.unescape_escapeWord_value (l.isLayered_program distributable), program_eq_around]
  exact Text.rewritten_around alone (by decide) whole

theorem expandBody?_programRead {env : Shell.Environment} {path : Text}
    (named : env "$0".toList = some path) :
    Shell.expandBody? env (l.programRead distributable) = some (l.argument distributable path) := by
  have layered := l.isLayered_of_mem_parts distributable
  have isSealed : ∀ part ∈ (l.opening distributable :: l.remainders distributable).map
      (Text.rewritten Piece.evaluated), part.IsSealed := by
    intro written member
    obtain ⟨part, listed, rfl⟩ := List.mem_map.1 member
    exact Shell.isSealed_rewritten (layered part listed)
      fun c starter => l.not_mem_of_mem_parts distributable starter part listed
  have read : ∀ part ∈ l.opening distributable :: l.remainders distributable,
      Shell.unescape (part.rewritten Piece.evaluated) = part.rewritten Piece.printed :=
    fun part listed => Shell.unescape_evaluated (layered part listed)
  rw [List.forall_mem_cons] at read
  have others : (l.remainders distributable).map (Shell.unescape ∘ Text.rewritten Piece.evaluated) =
      (l.remainders distributable).map (Text.rewritten Piece.printed) :=
    List.map_congr_left read.2
  rw [programRead_eq, Shell.expandBody?_around named isSealed, argument, read.1, List.map_map,
    others]

variable {l distributable}

theorem remainders_ne_nil : l.remainders distributable ≠ [] := by
  cases distributable <;> exact List.cons_ne_nil _ _

theorem words?_head (l : Launcher) (distributable : Bool) :
    (l.lines distributable).head?.bind Shell.words? = some [
      "eval".toList, "py=\"".toList ++ l.programRead distributable ++ ['"'], "code=253;".toList,
      "if (set -o pipefail) 2>/dev/null; then set -o pipefail; fi".toList] :=
  l.words?_assignment distributable

/-- The path of the script comes into the program that `eval` assigns, and `printf` and Python
read it there. Without a special character each literal that has it stands for it. With one they
do not, whatever its escapes print, unless POSIX gives these no meaning. -/
theorem scriptPath_reaches (l : Launcher) (distributable : Bool) :
    ∃ (value first : Text) (parts : List Text),
      (l.lines distributable).head?.bind Shell.words? = some [
        "eval".toList, "py=\"".toList ++ value ++ ['"'], "code=253;".toList,
        "if (set -o pipefail) 2>/dev/null; then set -o pipefail; fi".toList] ∧
      l.program distributable = first ++ parts.flatMap ("'$0'".toList ++ ·) ∧
      parts.length = (if distributable then 2 else 1) ∧ (∀ part ∈ first :: parts, '$' ∉ part) ∧
      ∀ (env : Shell.Environment) (path : Text), env "$0".toList = some path → path ≠ [] →
        ∃ given, Shell.expandBody? env value = some given ∧
          ('\\' ∉ path → (Shell.percentB? given).isSome) ∧
          ∀ names data, Shell.percentB? given = some data →
            ((∃ text, Text.decode? data = some text ∧
              Python.IsFilled names path first parts text) ↔ ∀ c ∈ path, c ∉ Python.special) := by
  have layered := l.isLayered_of_mem_parts distributable
  refine ⟨l.programRead distributable, l.opening distributable, l.remainders distributable,
    l.words?_head distributable, l.program_eq distributable, ?_, ?_, ?_⟩
  · cases distributable <;> rfl
  · exact l.not_mem_of_mem_parts distributable (by decide)
  intro env path named nonempty
  refine ⟨_, l.expandBody?_programRead distributable named, ?_, ?_⟩
  · intro noBackslash
    rw [argument, Shell.percentB?_around noBackslash layered]
    rfl
  intro names data printed
  by_cases escaped : '\\' ∈ path
  · have shorter := Shell.length_lt_of_percentB?_around escaped remainders_ne_nil layered printed
    constructor
    · rintro ⟨text, decoded, filled⟩
      obtain rfl := Text.decode?_eq_some_iff.1 decoded
      have longer := Python.length_around_le filled
      omega
    · intro clear
      exact absurd (by decide) (clear _ escaped)
  · have whole := Option.some.inj ((Shell.percentB?_around escaped layered).symm.trans printed)
    constructor
    · rintro ⟨text, decoded, filled⟩
      obtain rfl := Text.encode_injective (whole.trans (Text.decode?_eq_some_iff.1 decoded))
      exact Python.clear_of_isFilled_around escaped remainders_ne_nil filled
    · intro clear
      exact ⟨_, Text.decode?_eq_some_iff.2 whole.symm, Python.isFilled_around clear nonempty⟩

/-- Quotes of other kinds, a dollar sign and a blank in the path do no harm. -/
theorem scriptPath_reaches_odd :
    let path : Text := "a \"b\" $c.py".toList
    let env : Shell.Environment := fun _ => some path
    ∃ (value first : Text) (parts : List Text) (given : Text) (data : Bytes) (text : Text),
      standard.program true = first ++ parts.flatMap ("'$0'".toList ++ ·) ∧ parts.length = 2 ∧
      Shell.expandBody? env value = some given ∧ Shell.percentB? given = some data ∧
      Text.decode? data = some text ∧ Python.IsFilled (fun _ => none) path first parts text := by
  intro path env
  obtain ⟨value, first, parts, _, program, mentions, _, reaches⟩ := scriptPath_reaches standard true
  obtain ⟨given, expanded, noBackslash, filled⟩ := reaches env path rfl (by decide)
  have allowed : ∀ c ∈ path, c ∉ Python.special := by simp [path, Python.special]
  obtain ⟨data, printed⟩ := Option.isSome_iff_exists.1 (noBackslash (by decide))
  obtain ⟨text, decoded, filled⟩ := (filled (fun _ => none) data printed).2 allowed
  exact ⟨value, first, parts, given, data, text, program, mentions, expanded, printed, decoded,
    filled⟩

/-- A single quote in the path ends the literal that it is in. -/
theorem scriptPath_ends_literal :
    let path : Text := "it's.py".toList
    let env : Shell.Environment := fun _ => some path
    let first : Text :=
      "import sys\ntry:\n  import pysh\nexcept ImportError:\n  sys.exit(253)\npysh.main(".toList
    ∃ value given : Text,
      (standard.lines false).head?.bind Shell.words? = some [
        "eval".toList, "py=\"".toList ++ value ++ ['"'], "code=253;".toList,
        "if (set -o pipefail) 2>/dev/null; then set -o pipefail; fi".toList] ∧
      standard.program false = first ++ "'$0')\n".toList ∧
      Shell.expandBody? env value = some given ∧
      Shell.percentB? given = some (first ++ "'it's.py')\n".toList).encode ∧
      ∀ names, Python.string? names "'it's.py')\n".toList = some ("it".toList, "s.py')\n".toList) ∧
        ¬Python.IsFilled names path first [")\n".toList] (first ++ "'it's.py')\n".toList) := by
  intro path env first
  have noBackslash : '\\' ∉ path := by decide
  have opening : standard.opening false = first := by decide
  have remainders : standard.remainders false = [")\n".toList] := rfl
  have layered := standard.isLayered_of_mem_parts false
  have filled : Text.around path first [")\n".toList] = first ++ "'it's.py')\n".toList := by
    rw [Text.around_cons, Text.around_nil]
    exact congrArg (first ++ ·) (by decide)
  rw [opening, remainders] at layered
  refine ⟨standard.programRead false, standard.argument false path,
    standard.words?_head false, ?_, standard.expandBody?_programRead false rfl, ?_, ?_⟩
  · rw [program_eq, opening, remainders, List.flatMap_singleton]
    exact congrArg (first ++ ·) (by decide)
  · rw [argument, opening, remainders, Shell.percentB?_around noBackslash layered, filled]
  · intro names
    have cut : "'it's.py')\n".toList = '\'' :: ("it".toList ++ '\'' :: "s.py')\n".toList) := by
      decide
    constructor
    · rw [cut]
      exact Python.string?_append (by simp [Python.special]) (by decide) _
    · intro whole
      have clear := Python.clear_of_isFilled_around noBackslash (List.cons_ne_nil _ _)
        (filled ▸ whole)
      exact absurd (by decide) (clear '\'' (by decide))

end Path

end Launcher
end Bootscript
