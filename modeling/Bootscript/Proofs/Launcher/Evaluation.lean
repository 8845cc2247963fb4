import Bootscript.Proofs.Launcher.Polyglot
import Bootscript.Proofs.Shell.Expansion

/-! What `eval` gets from the lines of a launcher. Dollar signs are escaped in all of them, so
that no parameter is expanded before `eval`. Backquotes are not: the interpreters are looked
up before it, and what a lookup prints stands in the statement that `eval` reads. -/
namespace Bootscript.Launcher

/-- A line without free backquotes is read in every environment as it stands. -/
theorem expandWords?_evalLine_eq_words? (env : Shell.Environment) {words : List Text}
    (clear : ∀ word ∈ words, .plain '\x60' ∉ Text.pieces word) :
    Shell.expandWords? env (evalLine words) = Shell.words? (evalLine words) := by
  have command : .plain '\x60' ∉ Text.pieces "eval".toList := by decide
  rw [Shell.expandWords?, Shell.words?, bodies?_evalLine, Option.bind_some, Option.map_some,
    List.map_map]
  exact Shell.mapM_expandBody?_escapeWord env (List.forall_mem_cons.2 ⟨command, clear⟩)

theorem noBackquote_of_not_mem {word : Text} (clear : '\x60' ∉ word) :
    .plain '\x60' ∉ word.pieces := fun member =>
  clear (Text.mem_of_mem_pieces member (List.mem_singleton_self _))

theorem expandWords?_evalLine (env : Shell.Environment) {words : List Text}
    (clear : ∀ word ∈ words, List.Disjoint ['\\', '\x60'] word) :
    Shell.expandWords? env (evalLine words) = some ("eval".toList :: words) := by
  have special : '\\' ∈ ['\\', '\x60'] ∧ '\x60' ∈ ['\\', '\x60'] := by decide
  rw [expandWords?_evalLine_eq_words? env fun word member =>
      noBackquote_of_not_mem (clear word member special.2),
    words?_evalLine_of_clear fun word member => clear word member special.1]

def lookupCommand (interpreter : Text) : Text :=
  "command -v ".toList ++ interpreter ++ " || true".toList

def lookupWord (interpreter : Text) : Text :=
  "python_bin=`command -v ".toList ++ interpreter ++ " || true`;".toList

theorem attempt_eq (interpreter : Text) :
    attempt interpreter = lookupWord interpreter :: (attempt interpreter).tail := rfl

theorem lookupWord_append (interpreter rest : Text) : lookupWord interpreter ++ rest =
    "python_bin=".toList ++ '\x60' :: (lookupCommand interpreter ++ '\x60' :: ';' :: rest) := by
  have front : "python_bin=`command -v ".toList =
      "python_bin=".toList ++ '\x60' :: "command -v ".toList := rfl
  have back : " || true`;".toList = " || true".toList ++ ['\x60', ';'] := rfl
  have regroup (a b c d : Text) :
      (a ++ '\x60' :: b) ++ c ++ (d ++ ['\x60', ';']) ++ rest =
        a ++ '\x60' :: ((b ++ c ++ d) ++ '\x60' :: ';' :: rest) := by simp
  exact (congrArg₂ (· ++ interpreter ++ · ++ rest) front back).trans (regroup ..)

theorem noBackquote_of_mem_tail (interpreter : Text) :
    ∀ word ∈ (attempt interpreter).tail, '\x60' ∉ word := by
  simp [attempt, statusText_eq]

section Lookup

variable {l : Launcher} {interpreter : Text} (listed : interpreter ∈ l.interpreters)
include listed

theorem disjoint_lookupCommand : List.Disjoint Piece.shellSpecial (lookupCommand interpreter) := by
  have other : ∀ c ∈ Piece.shellSpecial, isCommandChar c = false := by
    simp only [Piece.shellSpecial, List.mem_cons, List.not_mem_nil, or_false, forall_eq_or_imp,
      forall_eq]
    decide
  have own : ∀ c ∈ Piece.shellSpecial, c ∉ "command -v ".toList ∧ c ∉ " || true".toList := by
    simp [Piece.shellSpecial]
  intro c special inside
  rcases List.mem_append.1 inside with inside | back
  · rcases List.mem_append.1 inside with front | inside
    · exact (own c special).1 front
    · have accepted := l.accepted_settings.2.1 interpreter listed
      exact not_mem_of_isCommand accepted (other c special) inside
  · exact (own c special).2 back

theorem escapeWord_lookupWord :
    Shell.escapeWord (lookupWord interpreter) = lookupWord interpreter := by
  apply Shell.escapeWord_of_disjoint
  have own : ∀ c ∈ Piece.escapedAlone, c ∉ "python_bin=".toList ∧ c ∉ ['\x60', ';'] := by
    simp [Piece.escapedAlone]
  intro c escaped inside
  obtain ⟨front, ends⟩ := own c escaped
  rw [← List.append_nil (lookupWord interpreter), lookupWord_append] at inside
  rcases List.mem_append.1 inside with inside | inside
  · exact front inside
  rcases List.mem_cons.1 inside with rfl | inside
  · exact ends (List.mem_cons_self ..)
  rcases List.mem_append.1 inside with command | back
  · exact disjoint_lookupCommand listed (Piece.mem_shellSpecial_of_mem escaped) command
  · exact ends back

theorem expandBody?_lookupWord (env : Shell.Environment) :
    Shell.expandBody? env (lookupWord interpreter) =
      (env ('\x60' :: lookupCommand interpreter ++ ['\x60'])).map fun found =>
        "python_bin=".toList ++ found ++ [';'] := by
  have front : List.Disjoint Piece.shellSpecial "python_bin=".toList := by
    simp [List.Disjoint, Piece.shellSpecial]
  have behind : Shell.expand? env [';', '"'] = some ([';'], []) := by
    rw [Shell.expand?_plain env _ (by simp) rfl, Shell.expand?_quote]
    rfl
  rw [Shell.expandBody?, lookupWord_append, Shell.expand?_append_of_disjoint env front,
    Shell.expand?_substitution env (disjoint_lookupCommand listed), behind]
  cases env ('\x60' :: lookupCommand interpreter ++ ['\x60']) with
  | none => rfl
  | some found => simp

/-- What a lookup prints comes in the place of its command, before `eval` reads the statement. -/
theorem expandWords?_attempt (env : Shell.Environment) :
    Shell.expandWords? env (evalLine (attempt interpreter)) =
      (env ('\x60' :: lookupCommand interpreter ++ ['\x60'])).map fun found =>
        "eval".toList :: ("python_bin=".toList ++ found ++ [';']) ::
          (attempt interpreter).tail := by
  have noBackslash : ∀ word ∈ (attempt interpreter).tail, '\\' ∉ word := by
    intro word member
    exact not_mem_attempt (by decide) listed word
      (List.mem_of_mem_tail member)
  have command : Shell.expandBody? env (Shell.escapeWord "eval".toList) = some "eval".toList := by
    rw [Shell.expandBody?_of_isSealed env (Shell.isSealed_escapeWord (by decide)),
      Shell.unescape_escapeWord_of_not_mem (by decide)]
  have rest := Shell.mapM_expandBody?_escapeWord env fun word member =>
    noBackquote_of_not_mem (noBackquote_of_mem_tail interpreter word member)
  rw [List.map_congr_left fun word member =>
    Shell.unescape_escapeWord_of_not_mem (noBackslash word member), List.map_id'] at rest
  rw [Shell.expandWords?, bodies?_evalLine, Option.bind_some, attempt_eq, List.map_cons,
    List.map_cons, List.mapM_cons, List.mapM_cons, command, escapeWord_lookupWord listed,
    expandBody?_lookupWord listed, rest]
  cases env ('\x60' :: lookupCommand interpreter ++ ['\x60']) <;> rfl

end Lookup

/-- The program up to the first place where it has the path of the script. -/
def opening (l : Launcher) (distributable : Bool) : Text :=
  if distributable then
    [ "from base64 import b64decode".toList,
      "import sys".toList,
      "import tempfile".toList ].flatMap (· ++ ['\n']) ++ "with open(".toList
  else
    [ "import sys".toList,
      "try:".toList,
      "  import ".toList ++ l.runtimeModule,
      "except ImportError:".toList,
      "  sys.exit(".toList ++ statusText ++ [')'] ].flatMap (· ++ ['\n']) ++
      (l.runtimeModule ++ ".main(".toList)

def remainders (l : Launcher) (distributable : Bool) : List Text :=
  if distributable then
    [ [ ") as script_f:".toList,
        "  with tempfile.NamedTemporaryFile(suffix='.zip') as f:".toList,
        "    f.write(b64decode(eval(script_f.read().split('".toList ++ Script.notice ++
          "\\n', 1)[1])))".toList,
        "    f.flush()".toList,
        "    sys.path.insert(0, f.name)".toList,
        "    import ".toList ++ l.runtimeModule ].flatMap (· ++ ['\n']) ++
        ("    ".toList ++ l.runtimeModule ++ ".main(".toList),
      [')', '\n'] ]
  else [[')', '\n']]

theorem program_eq (l : Launcher) (distributable : Bool) : l.program distributable =
    l.opening distributable ++ (l.remainders distributable).flatMap ("'$0'".toList ++ ·) := by
  have called : ".main('$0')".toList = ".main(".toList ++ ("'$0'".toList ++ [')']) := rfl
  have opened : "with open('$0') as script_f:".toList =
      "with open(".toList ++ ("'$0'".toList ++ ") as script_f:".toList) := rfl
  have last : [')', '\n'] = [')'] ++ ['\n'] := rfl
  cases distributable with
  | false =>
    simp only [program, programLines, opening, remainders, Bool.false_eq_true, ↓reduceIte, called,
      last, List.flatMap_cons, List.flatMap_nil, List.append_assoc, List.append_nil]
  | true =>
    simp only [program, programLines, opening, remainders, ↓reduceIte, called, opened, last,
      List.flatMap_cons, List.flatMap_nil, List.append_assoc, List.append_nil]

/-- Only the mentions of the script are expanded. -/
theorem not_mem_of_mem_parts (l : Launcher) (distributable : Bool) {c : Char}
    (starter : c ∈ Shell.starters) :
    ∀ part ∈ l.opening distributable :: l.remainders distributable, c ∉ part := by
  have other : ∀ c ∈ Shell.starters, c.isAlphanum = false ∧ c ≠ '_' ∧ c ≠ '.' := by
    simp only [Shell.starters, List.mem_cons, List.not_mem_nil, or_false, forall_eq_or_imp,
      forall_eq]
    decide
  have runtimeModule : c ∉ l.runtimeModule :=
    not_mem_of_isModule l.accepted_settings.2.2.1 (other c starter)
  have clear {t : Text} (all : Shell.starters.all (· ∉ t)) : c ∉ t := by
    simpa using List.all_eq_true.1 all c starter
  cases distributable with
  | false =>
    simp only [opening, remainders, statusText_eq, Bool.false_eq_true, ↓reduceIte,
      List.forall_mem_cons, List.flatMap_cons, List.flatMap_nil, List.mem_append, runtimeModule,
      or_false, false_or, not_or]
    and_intros <;> first | exact clear (by decide) | exact List.forall_mem_nil _
  | true =>
    simp only [opening, remainders, ↓reduceIte, List.forall_mem_cons, List.flatMap_cons,
      List.flatMap_nil, List.mem_append, runtimeModule, or_false, not_or]
    and_intros <;> first | exact clear (by decide) | exact List.forall_mem_nil _

section Lines

variable (l : Launcher) (distributable : Bool)

theorem not_mem_assignment : ∀ word ∈ l.assignment distributable, '\x60' ∉ word := by
  have parts := l.not_mem_of_mem_parts distributable (show '\x60' ∈ Shell.starters by decide)
  rw [List.forall_mem_cons] at parts
  have mention : '\x60' ∉ "'$0'".toList := by decide
  have program : '\x60' ∉ l.program distributable := by
    rw [program_eq, List.mem_append, List.mem_flatMap]
    rintro (front | ⟨part, behind, inside⟩)
    · exact parts.1 front
    · exact (List.mem_append.1 inside).elim mention (parts.2 part behind)
  have value : '\x60' ∉ l.programValue distributable := by
    rw [programValue, List.mem_flatMap]
    rintro ⟨c, origin, inside⟩
    split at inside
    · revert inside
      decide
    · obtain rfl := List.mem_singleton.1 inside
      rcases Shell.mem_of_mem_escapeBackslashes origin with absurd | inside
      · cases absurd
      · exact program inside
  simp [assignment, statusText_eq, value]

theorem disjoint_of_mem_failureReport {word : Text}
    (member : word ∈ l.failureReport) : List.Disjoint ['\\', '\x60'] word := by
  have outside : ∀ c ∈ ['\\', '\x60'], c ∈ foreign := by simp [foreign]
  exact fun c special => not_mem_failureReport (outside c special) l word member

/-- A backquote stands free in the lookups and nowhere else. -/
theorem backquote_mem_iff {words : List Text} (statement : words ∈ l.statements distributable)
    {word : Text} (member : word ∈ "eval".toList :: words) :
    .plain '\x60' ∈ (Shell.escapeWord word).pieces ↔
      ∃ interpreter ∈ l.interpreters, Shell.escapeWord word = lookupWord interpreter := by
  constructor
  · intro free
    have inside : '\x60' ∈ word := by
      by_contra clear
      exact (Shell.isSealed_escapeWord (noBackquote_of_not_mem clear)).escaped _ (by decide) free
    have other : '\x60' ∉ "eval".toList ∧ ∀ word ∈ exitStatement, '\x60' ∉ word := by
      simp [exitStatement]
    rcases List.mem_cons.1 member with rfl | member
    · exact absurd inside other.1
    simp only [statements, List.cons_append, List.mem_cons, List.mem_append, List.mem_map,
      List.not_mem_nil, or_false] at statement
    rcases statement with rfl | ⟨interpreter, listed, rfl⟩ | rfl | rfl
    · exact absurd inside (l.not_mem_assignment distributable word member)
    · rw [attempt_eq] at member
      rcases List.mem_cons.1 member with rfl | member
      · exact ⟨interpreter, listed, escapeWord_lookupWord listed⟩
      · exact absurd inside (noBackquote_of_mem_tail interpreter word member)
    · exact absurd inside (not_mem_failureReport (by decide) l word member)
    · exact absurd inside (other.2 word member)
  · rintro ⟨interpreter, listed, same⟩
    have clear : '\\' ∉ lookupWord interpreter := by
      apply not_mem_attempt (by decide) listed
      rw [attempt_eq]
      exact List.mem_cons_self ..
    rw [same, Text.pieces_of_not_mem clear, ← List.append_nil (lookupWord interpreter),
      lookupWord_append]
    simp

/-- The shell expands no parameter before `eval`, and no command but the lookups, in the words
that it reads of a launcher's lines. What a lookup prints becomes a part of the statement. -/
theorem expandWords?_lines :
    (∀ line ∈ l.lines distributable, ∃ bodies, line.bodies? = some bodies ∧ ∀ body ∈ bodies,
      .plain '$' ∉ Text.pieces body ∧ (.plain '\x60' ∈ Text.pieces body ↔
        ∃ interpreter ∈ l.interpreters, body = lookupWord interpreter)) ∧
    ∀ env, (l.lines distributable).map (Shell.expandWords? env) =
      Shell.words? (evalLine (l.assignment distributable)) ::
        l.interpreters.map (fun interpreter =>
          (env ('\x60' :: lookupCommand interpreter ++ ['\x60'])).map fun found =>
            "eval".toList :: ("python_bin=".toList ++ found ++ [';']) ::
              (attempt interpreter).tail) ++
        [some ("eval".toList :: l.failureReport), some ("eval".toList :: exitStatement)] := by
  constructor
  · intro line member
    obtain ⟨words, statement, rfl⟩ := List.mem_map.1 member
    refine ⟨_, bodies?_evalLine words, ?_⟩
    rw [List.forall_mem_map]
    exact fun word listed =>
      ⟨Shell.noParameter_escapeWord word, l.backquote_mem_iff distributable statement listed⟩
  · intro env
    have assigned := expandWords?_evalLine_eq_words? env fun word member =>
      noBackquote_of_not_mem (l.not_mem_assignment distributable word member)
    have attempts : l.interpreters.map
        (fun name => Shell.expandWords? env (evalLine (attempt name))) = _ :=
      List.map_congr_left fun name listed => expandWords?_attempt listed env
    have reported : Shell.expandWords? env (evalLine l.failureReport) = _ :=
      expandWords?_evalLine env fun word => l.disjoint_of_mem_failureReport
    have exited : Shell.expandWords? env (evalLine exitStatement) = _ :=
      expandWords?_evalLine env (by simp [exitStatement, List.Disjoint])
    rw [← assigned, ← reported, ← exited, ← attempts]
    simp [lines, statements, Function.comp_def]

/-- Where the lookup prints a path with a blank in it, the statement is no longer the one that
was written: `eval` is to run `tools/python3` there. -/
theorem expandWords?_lines_blank :
    let env : Shell.Environment := fun _ => some "/opt/my tools/python3".toList
    let rest := (attempt "python3".toList).tail
    ∃ line ∈ standard.lines false,
      Shell.words? line =
        some ("eval".toList :: "python_bin=`command -v python3 || true`;".toList :: rest) ∧
      Shell.expandWords? env line =
        some ("eval".toList :: "python_bin=/opt/my tools/python3;".toList :: rest) ∧
      Shell.expandWords? env line ≠ Shell.words? line := by
  intro env rest
  have listed : "python3".toList ∈ standard.interpreters := by decide
  have written : Shell.words? (evalLine (attempt "python3".toList)) =
      some ("eval".toList :: "python_bin=`command -v python3 || true`;".toList :: rest) :=
    words?_evalLine_of_clear fun word =>
      not_mem_attempt (by decide) listed word
  have evaluated : Shell.expandWords? env (evalLine (attempt "python3".toList)) =
      some ("eval".toList :: "python_bin=/opt/my tools/python3;".toList :: rest) :=
    expandWords?_attempt listed env
  refine ⟨_, List.mem_map.2 ⟨_, ?_, rfl⟩, written, evaluated, ?_⟩
  · exact List.mem_append_left _ (List.mem_cons_of_mem _ (List.mem_map_of_mem listed))
  · rw [written, evaluated]
    decide

end Lines

end Bootscript.Launcher
