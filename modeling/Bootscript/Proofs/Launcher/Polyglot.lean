import Bootscript.Proofs.Launcher.Lines
import Bootscript.Proofs.Shell.Layers
import Bootscript.Python.Literal

/-! The lines of a launcher as the shell reads them and as Python does. Both find the same
strings; to Python they are values that nothing is done with, and to the shell the
statements of the launcher, the first of which carries the program. A hint may bring a NUL
into the failure report, which is in no Python source. -/
namespace Bootscript

/-- Pieces that the shell takes for the same strings as Python: no quote is free, and the
pairs are escapes in both. -/
def Piece.IsShared : Piece → Prop
  | plain c => c ∉ ['\\', '"']
  | pair c => c ∈ ['\\', '"', '$', 'n']

/-- A line of strings that the shell evaluates, and which both find where they are. -/
structure Line.IsPolyglot (line : Line) : Prop where
  words : ∃ bodies : List Text, line.bodies? = some ("eval".toList :: bodies) ∧
    ∀ body ∈ "eval".toList :: bodies, ∀ piece ∈ Text.pieces body, piece.IsShared
  unbroken : ∀ c ∈ ['\n', '\r'], c ∉ line
  noMarker : Marker.start? line = none ∧ Marker.finish? line = none

namespace Launcher

theorem bodies?_evalLine (words : List Text) :
    (evalLine words).bodies? = some (("eval".toList :: words).map Shell.escapeWord) := by
  have quotes : ("eval".toList :: words).map Shell.quoteWord =
      (("eval".toList :: words).map Shell.escapeWord).map fun body => '"' :: body ++ ['"'] := by
    rw [List.map_map]
    rfl
  rw [evalLine, quotes]
  apply Text.bodies?_intercalate (by simp)
  rw [List.forall_mem_map]
  exact fun word _ => Shell.isBody_escapeWord word

theorem words?_evalLine (words : List Text) : Shell.words? (evalLine words) =
    some ("eval".toList :: words.map fun word => Shell.unescape (Shell.escapeWord word)) := by
  have command : Shell.unescape (Shell.escapeWord "eval".toList) = "eval".toList :=
    Shell.unescape_escapeWord_of_not_mem (by decide)
  rw [Shell.words?, bodies?_evalLine, Option.map_some, List.map_map, List.map_cons]
  simp only [Function.comp_apply, command]
  rfl

/-- Words without backslashes are read as they were meant. -/
theorem words?_evalLine_of_clear {words : List Text} (clear : ∀ word ∈ words, '\\' ∉ word) :
    Shell.words? (evalLine words) = some ("eval".toList :: words) := by
  rw [words?_evalLine]
  congr 2
  rw [List.map_congr_left fun word member => Shell.unescape_escapeWord_of_not_mem (clear word member),
    List.map_id']

theorem isLayered_of_isCode {p : Piece} (code : p.IsCode) : p.IsLayered := by
  cases p with
  | plain c =>
    rw [Piece.IsCode, List.mem_cons, List.mem_cons, not_or, not_or] at code
    exact ⟨code.1, code.2.1⟩
  | pair c =>
    obtain rfl := code
    decide

section Program

variable (l : Launcher) (distributable : Bool)

theorem isLayered_program : ∀ p ∈ (l.program distributable).pieces, p.IsLayered :=
  fun p member => isLayered_of_isCode (l.isCode_program distributable p member)

theorem programValue_eq : l.programValue distributable =
    (l.program distributable).pieces.flatMap Piece.value :=
  Shell.onOneLine_escapeBackslashes (l.isLayered_program distributable)

theorem isWhole_programValue : (l.programValue distributable).IsWhole := by
  rw [programValue_eq]
  exact Text.isWhole_flatMap fun p member =>
    Piece.isWhole_value (l.isLayered_program distributable p member)

theorem mem_of_pair_mem_programValue {c : Char}
    (member : .pair c ∈ (l.programValue distributable).pieces) : c ∈ ['\\', 'n'] := by
  have layered := l.isLayered_program distributable
  rw [programValue_eq, Text.pieces_flatMap fun p inside => Piece.isWhole_value (layered p inside)]
    at member
  obtain ⟨p, origin, inside⟩ := List.mem_flatMap.1 member
  have code := l.isCode_program distributable p origin
  rw [Piece.pieces_value (layered p origin)] at inside
  cases p with
  | plain d => by_cases feed : d = '\n' <;> simp_all
  | pair d =>
    obtain rfl := code
    simpa using inside

def programRead : Text := Shell.unescape (Shell.escapeWord (l.programValue distributable))

theorem words?_assignment : Shell.words? (evalLine (l.assignment distributable)) = some [
    "eval".toList, "py=\"".toList ++ l.programRead distributable ++ ['"'], "code=253;".toList,
    "if (set -o pipefail) 2>/dev/null; then set -o pipefail; fi".toList] := by
  have read {word : Text} (clear : '\\' ∉ word) := Shell.unescape_escapeWord_of_not_mem clear
  have value : Shell.unescape (Shell.escapeWord
      ("py=\"".toList ++ l.programValue distributable ++ ['"'])) =
      "py=\"".toList ++ l.programRead distributable ++ ['"'] := by
    have opening : Text.IsWhole "py=\"".toList := Text.isWhole_of_not_mem (by decide)
    rw [Shell.unescape_escapeWord_append (opening.append (l.isWhole_programValue distributable)),
      Shell.unescape_escapeWord_append opening, read (show '\\' ∉ "py=\"".toList by decide),
      read (show '\\' ∉ ['"'] by decide), programRead]
  have status : Shell.unescape (Shell.escapeWord ("code=".toList ++ statusText ++ [';'])) =
      "code=253;".toList := read (by decide)
  rw [words?_evalLine, assignment, List.map_cons, List.map_cons, List.map_singleton, value, status,
    read (by decide)]

end Program

section EvalLine

variable {words : List Text} (unbroken : ∀ word ∈ words, ∀ c ∈ ['\n', '\r'], c ∉ word)
  (pairs : ∀ word ∈ words, ∀ c, .pair c ∈ Text.pieces word → c ∈ ['\\', 'n'])
include unbroken pairs

theorem isShared_escapeWord : ∀ body ∈ ("eval".toList :: words).map Shell.escapeWord,
    ∀ piece ∈ Text.pieces body,
      piece.IsShared ∧ ((piece.literal?).isSome ↔ piece ≠ .plain '\x00') := by
  have alone : ∀ c ∈ ['\\', '"'], c ∈ Piece.escapedAlone := by simp [Piece.escapedAlone]
  have made : ∀ c ∈ Piece.escapedAlone, c ∈ ['\\', '"', '$', 'n'] := by simp [Piece.escapedAlone]
  have kept : ∀ c ∈ ['\\', 'n'], c ∈ ['\\', '"', '$', 'n'] := by simp
  have readable : ∀ c ∈ ['\\', '"', '$', 'n'], ((Piece.pair c).literal?).isSome := by
    simp [Piece.literal?, Piece.longEscapes]
  intro body member piece inside
  obtain ⟨word, listed, rfl⟩ := List.mem_map.1 member
  have whole : (∀ c ∈ ['\n', '\r'], c ∉ word) ∧ ∀ c, .pair c ∈ word.pieces → c ∈ ['\\', 'n'] := by
    rcases List.mem_cons.1 listed with rfl | listed
    · exact ⟨by simp, by rw [Text.pieces_of_not_mem (by decide)]; simp⟩
    · exact ⟨unbroken word listed, pairs word listed⟩
  rcases Shell.mem_pieces_escapeWord inside with ⟨c, free, rfl, origin⟩ | ⟨c, rfl, escaped⟩
  · have present : c ∈ word := Text.mem_of_mem_pieces origin (List.mem_singleton_self c)
    have noBackslash : c ≠ '\\' := fun same => free (same ▸ alone '\\' (by decide))
    have noFeed : c ≠ '\n' := ne_of_mem_of_not_mem present (whole.1 _ (by decide))
    have noReturn : c ≠ '\r' := ne_of_mem_of_not_mem present (whole.1 _ (by decide))
    refine ⟨fun special => free (alone c special), ?_⟩
    by_cases nul : c = '\x00' <;> simp [Piece.literal?, noBackslash, noFeed, noReturn, nul]
  · have shared := escaped.elim (made c) fun origin => kept c (whole.2 c origin)
    exact ⟨shared, iff_of_true (readable c shared) (by simp)⟩

theorem isPolyglot_evalLine : (evalLine words).IsPolyglot where
  words := by
    refine ⟨words.map Shell.escapeWord, bodies?_evalLine words, fun body member piece inside => ?_⟩
    exact (isShared_escapeWord unbroken pairs body member piece inside).1
  unbroken c lineBreak inside := by
    have other : ∀ c ∈ ['\n', '\r'], c ∉ "\"eval \\".toList := by simp
    rcases mem_evalLine inside with own | ⟨word, listed, inside⟩
    · exact other c lineBreak own
    · exact unbroken word listed c lineBreak inside
  noMarker := ⟨Marker.start?_of_not_opening (not_opening_evalLine words),
    Marker.finish?_of_not_opening (not_opening_evalLine words)⟩

/-- A NUL is all that keeps the words of a line from being strings in Python. -/
theorem isSome_literals?_evalLine :
    (Python.literals? (evalLine words)).isSome ↔ ∀ word ∈ words, '\x00' ∉ word := by
  have shared := isShared_escapeWord unbroken pairs
  have alone : '\x00' ∉ Piece.escapedAlone := by decide
  have clear : ∀ word ∈ words,
      (.plain '\x00' ∈ (Shell.escapeWord word).pieces ↔ '\x00' ∈ word) := by
    intro word listed
    rw [Shell.plain_mem_pieces_escapeWord_iff alone]
    exact Text.plain_mem_pieces_iff (by decide) fun pair =>
      absurd (pairs word listed _ pair) (by decide)
  rw [Python.literals?, bodies?_evalLine, Option.bind_some, Piece.isSome_readAll_iff]
  constructor
  · intro readable word listed nul
    have body := List.mem_map_of_mem (f := Shell.escapeWord)
      (List.mem_cons_of_mem "eval".toList listed)
    have inside := (clear word listed).2 nul
    exact (shared _ body _ inside).2.1 (readable _ (List.mem_flatMap.2 ⟨_, body, inside⟩)) rfl
  · intro free piece member
    obtain ⟨body, listed, inside⟩ := List.mem_flatMap.1 member
    refine (shared body listed piece inside).2.2 ?_
    rintro rfl
    obtain ⟨word, origin, rfl⟩ := List.mem_map.1 listed
    rcases List.mem_cons.1 origin with rfl | origin
    · revert inside
      decide
    · exact free word origin ((clear word origin).1 inside)

end EvalLine

section Lines

variable (l : Launcher) (distributable : Bool)

theorem noBackslash_of_mem_statements {words : List Text}
    (statement : words ∈ l.interpreters.map attempt ++ [l.failureReport, exitStatement]) :
    ∀ word ∈ words, '\\' ∉ word := by
  simp only [List.mem_append, List.mem_map, List.mem_cons, List.not_mem_nil, or_false] at statement
  rcases statement with ⟨interpreter, listed, rfl⟩ | rfl | rfl
  · exact not_mem_attempt (by decide) listed
  · exact not_mem_failureReport (by decide) l
  · simp [exitStatement]

theorem pairs_assignment {word : Text} (member : word ∈ l.assignment distributable) {c : Char}
    (inside : .pair c ∈ word.pieces) : c ∈ ['\\', 'n'] := by
  have noPair {t : Text} (clear : '\\' ∉ t) : .pair c ∉ t.pieces := by
    rw [Text.pieces_of_not_mem clear]
    simp
  simp only [assignment, List.mem_cons, List.not_mem_nil, or_false] at member
  rcases member with rfl | rfl | rfl
  · have opening : '\\' ∉ "py=\"".toList := by decide
    have whole := Text.isWhole_of_not_mem opening
    rw [Text.pieces_append (whole.append (l.isWhole_programValue distributable)),
      Text.pieces_append whole, List.mem_append, List.mem_append] at inside
    rcases inside with (front | value) | quote
    · exact absurd front (noPair opening)
    · exact l.mem_of_pair_mem_programValue distributable value
    · exact absurd quote (noPair (by decide))
  · exact absurd inside (noPair (by decide))
  · exact absurd inside (noPair (by decide))

theorem isReadable_of_mem_statements {words : List Text}
    (statement : words ∈ l.statements distributable) :
    (∀ word ∈ words, ∀ c ∈ ['\n', '\r'], c ∉ word) ∧
      ∀ word ∈ words, ∀ c, .pair c ∈ Text.pieces word → c ∈ ['\\', 'n'] := by
  constructor
  · intro word listed c lineBreak
    exact not_mem_of_mem_statements (by simpa using lineBreak) statement listed
  · intro word listed c inside
    rcases List.mem_cons.1 statement with rfl | later
    · exact l.pairs_assignment distributable listed inside
    · rw [Text.pieces_of_not_mem (l.noBackslash_of_mem_statements later word listed)] at inside
      simp at inside

theorem isPolyglot_of_mem_lines {line : Line} (member : line ∈ l.lines distributable) :
    line.IsPolyglot := by
  obtain ⟨words, statement, rfl⟩ := List.mem_map.1 member
  obtain ⟨unbroken, pairs⟩ := l.isReadable_of_mem_statements distributable statement
  exact isPolyglot_evalLine unbroken pairs

/-- Only the hint can bring a NUL into a statement. -/
theorem nul_not_mem_iff {words : List Text} (statement : words ∈ l.statements distributable) :
    (∀ word ∈ words, '\x00' ∉ word) ↔ (words = l.failureReport → '\x00' ∉ l.hint) := by
  by_cases same : words = l.failureReport
  · have runtimeModule : '\x00' ∉ l.runtimeModule :=
      not_mem_of_isModule l.accepted_settings.2.2.1 (by decide)
    subst same
    simp [failureReport, statusText_eq, runtimeModule]
  · refine iff_of_true ?_ fun absurd => (same absurd).elim
    simp only [statements, List.cons_append, List.mem_cons, List.mem_append, List.mem_map,
      List.not_mem_nil, or_false, same, false_or] at statement
    rcases statement with rfl | ⟨interpreter, listed, rfl⟩ | rfl
    · have value := not_mem_programValue (show '\x00' ∈ _ by decide) l distributable
      simp [assignment, statusText_eq, value]
    · exact not_mem_attempt (by decide) listed
    · simp [exitStatement]

theorem isSome_literals?_iff {line : Line} (member : line ∈ l.lines distributable) :
    (Python.literals? line).isSome ↔ (line = evalLine l.failureReport → '\x00' ∉ l.hint) := by
  have readable {words : List Text} (statement : words ∈ l.statements distributable) :
      (Python.literals? (evalLine words)).isSome ↔ (words = l.failureReport → '\x00' ∉ l.hint) := by
    obtain ⟨unbroken, pairs⟩ := l.isReadable_of_mem_statements distributable statement
    exact (isSome_literals?_evalLine unbroken pairs).trans
      (l.nul_not_mem_iff distributable statement)
  have report : l.failureReport ∈ l.statements distributable := by simp [statements]
  obtain ⟨words, statement, rfl⟩ := List.mem_map.1 member
  by_cases same : evalLine words = evalLine l.failureReport
  · rw [same, readable report]
    simp
  · exact iff_of_true ((readable statement).2 fun absurd => (same (congrArg _ absurd)).elim)
      fun absurd => (same absurd).elim

theorem words?_lines : (l.lines distributable).map Shell.words? =
    (["py=\"".toList ++ l.programRead distributable ++ ['"'], "code=253;".toList,
        "if (set -o pipefail) 2>/dev/null; then set -o pipefail; fi".toList] ::
      l.interpreters.map attempt ++ [l.failureReport, ["exit".toList, "$code".toList]]).map
        fun words => some ("eval".toList :: words) := by
  have later : (l.interpreters.map attempt ++ [l.failureReport, exitStatement]).map
      (fun words => Shell.words? (evalLine words)) =
      (l.interpreters.map attempt ++ [l.failureReport, exitStatement]).map
        fun words => some ("eval".toList :: words) :=
    List.map_congr_left fun words statement =>
      words?_evalLine_of_clear (l.noBackslash_of_mem_statements statement)
  rw [lines, List.map_map, statements, List.cons_append, List.map_cons, Function.comp_apply,
    words?_assignment, List.cons_append, List.map_cons, ← exitStatement]
  exact congrArg _ later

theorem attempt_eq_words (interpreter : Text) : attempt interpreter =
    ("python_bin=`command -v ".toList ++ interpreter ++ " || true`;".toList) ::
      ["if [ -n \"$\x7bpython_bin\x7d\" ]; then", "code=0;", "(", "printf", "'%b'",
        "\"$\x7bpy\x7d\"", "|", "(", "\"$\x7bpython_bin\x7d\"", "/dev/fd/3", "\"$@\"", "0<&4", ")",
        "3<&0", ")", "4<&0", "||", "code=$?;", "if [ $code -ne 253 ]; then exit $code; fi;",
        "fi"].map String.toList := by
  rw [attempt, statusText_eq]
  rfl

theorem failureReport_eq_words : l.failureReport = [
    "if [ $code -eq 253 ]; then".toList,
    "echo \"pysh: script $0 requires the ".toList ++ l.runtimeModule ++
      " package. Install it with:\" >&2;".toList,
    "echo \"      $ ".toList ++ l.hint ++ "\" >&2;".toList,
    "fi".toList] := by
  rw [failureReport, statusText_eq]
  rfl

/-- The lines of a launcher are strings to Python, but for the failure report when there is a
NUL in the hint. The shell reads the statements from them: an assignment, a lookup for each
interpreter in their order, the report of a failure with the module and the hint, and the end
of the script. The value of `py` in the first one is read by `eval`, and what that makes of it
by `printf`, as the program with `$0` in it. -/
theorem lines_polyglot :
    (∀ line ∈ l.lines distributable, line.IsPolyglot ∧
      ((Python.literals? line).isSome ↔ (line = evalLine l.failureReport → '\x00' ∉ l.hint))) ∧
      ∃ value : Text,
        (l.lines distributable).map Shell.words? =
          (["py=\"".toList ++ value ++ ['"'], "code=253;".toList,
              "if (set -o pipefail) 2>/dev/null; then set -o pipefail; fi".toList] ::
            l.interpreters.map (fun interpreter =>
              ("python_bin=`command -v ".toList ++ interpreter ++ " || true`;".toList) ::
                ["if [ -n \"$\x7bpython_bin\x7d\" ]; then", "code=0;", "(", "printf", "'%b'",
                  "\"$\x7bpy\x7d\"", "|", "(", "\"$\x7bpython_bin\x7d\"", "/dev/fd/3", "\"$@\"",
                  "0<&4", ")", "3<&0", ")", "4<&0", "||", "code=$?;",
                  "if [ $code -ne 253 ]; then exit $code; fi;", "fi"].map String.toList) ++
            [["if [ $code -eq 253 ]; then".toList,
                "echo \"pysh: script $0 requires the ".toList ++ l.runtimeModule ++
                  " package. Install it with:\" >&2;".toList,
                "echo \"      $ ".toList ++ l.hint ++ "\" >&2;".toList,
                "fi".toList],
              ["exit".toList, "$code".toList]]).map (fun words => some ("eval".toList :: words)) ∧
        .plain '"' ∉ value.pieces ∧
        Shell.printf? (Shell.unescape value) = some (l.program distributable) := by
  have layers := Shell.printf?_unescape_unescape (l.isLayered_program distributable)
  refine ⟨fun line member => ⟨l.isPolyglot_of_mem_lines distributable member,
    l.isSome_literals?_iff distributable member⟩, l.programRead distributable, ?_, layers⟩
  rw [words?_lines, failureReport_eq_words, funext attempt_eq_words]

/-- A NUL is accepted in a hint, and the line that shows it is nothing to Python. -/
theorem literals?_lines_nul : ∃ l : Launcher,
    make defaultInterpreters defaultModule ['\x00'] = .ok l ∧
      ∃ line ∈ l.lines false, Python.literals? line = none := by
  refine ⟨⟨defaultInterpreters, defaultModule, ['\x00'], by decide⟩, rfl, ?_⟩
  decide +kernel

end Lines

end Launcher
end Bootscript
