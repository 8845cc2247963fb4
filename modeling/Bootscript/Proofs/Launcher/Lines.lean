import Bootscript.Launcher.Lines
import Bootscript.Proofs.Marker
import Bootscript.Proofs.Shell.Word

/-! The lines of a launcher as lines of a file: none holds a line break or can be taken
for a marker, whatever settings were accepted. -/
namespace Bootscript

namespace Piece

def IsCode : Piece → Prop
  | plain c => c ∉ ['\\', '"', '\r', '\x00']
  | pair c => c = 'n'

instance : DecidablePred IsCode
  | plain _ => inferInstanceAs (Decidable (_ ∉ _))
  | pair _ => inferInstanceAs (Decidable (_ = _))

end Piece

namespace Text

def IsCode (t : Text) : Prop := ∀ p ∈ t.pieces, p.IsCode

theorem isCode_of_all {t : Text} (clear : t.all (· ∉ ['\\', '"', '\r', '\x00'])) :
    t.IsCode := by
  have free : ∀ c ∈ t, c ∉ ['\\', '"', '\r', '\x00'] := by simpa using clear
  have noBackslash : '\\' ∉ t := fun inside => free _ inside (List.mem_cons_self ..)
  rw [IsCode, pieces_of_not_mem noBackslash, List.forall_mem_map]
  exact free

theorem isCode_escape : Text.IsCode ['\\', 'n'] := by
  intro p member
  exact List.mem_singleton.1 member ▸ rfl

theorem IsCode.isWhole {t : Text} (code : t.IsCode) : t.IsWhole :=
  fun member => code _ member (by decide)

theorem IsCode.append {first second : Text} (code : first.IsCode) (code' : second.IsCode) :
    (first ++ second).IsCode := by
  rw [IsCode, pieces_append code.isWhole]
  exact List.forall_mem_append.2 ⟨code, code'⟩

theorem IsCode.of_append {front rest : Text} {c : Char} (other : c ∉ ['\\', 'n'])
    (code : (front ++ c :: rest).IsCode) : front.IsCode ∧ rest.IsCode := by
  rw [List.mem_cons, List.mem_singleton, not_or] at other
  unfold IsCode at code
  rw [IsCode]
  fun_induction pieces front with
  | case1 =>
    rw [List.nil_append, pieces_cons other.1] at code
    exact ⟨List.forall_mem_nil _, (List.forall_mem_cons.1 code).2⟩
  | case2 =>
    rw [List.singleton_append, pieces_pair] at code
    exact absurd (List.forall_mem_cons.1 code).1 other.2
  | case3 escaped front ih =>
    rw [List.cons_append, List.cons_append, pieces_pair, List.forall_mem_cons] at code
    obtain ⟨front, rest⟩ := ih code.2
    exact ⟨List.forall_mem_cons.2 ⟨code.1, front⟩, rest⟩
  | case4 d front free ih =>
    rw [List.cons_append, pieces_cons free, List.forall_mem_cons] at code
    obtain ⟨front, rest⟩ := ih code.2
    exact ⟨List.forall_mem_cons.2 ⟨code.1, front⟩, rest⟩

theorem IsCode.not_mem {t : Text} (code : t.IsCode) {c : Char} (other : c ∈ ['\r', '\x00']) :
    c ∉ t := by
  have outside : ∀ c ∈ ['\r', '\x00'], c ∈ ['\\', '"', '\r', '\x00'] ∧ c ∉ ['\\', 'n'] := by simp
  rw [← text_pieces t]
  intro member
  obtain ⟨p, origin, inside⟩ := List.mem_flatMap.1 member
  have special := code p origin
  cases p with
  | plain d =>
    obtain rfl := List.mem_singleton.1 inside
    exact special (outside _ other).1
  | pair d =>
    obtain rfl := special
    exact (outside c other).2 inside

end Text

namespace Launcher

theorem head?_evalLine (words : List Text) : (evalLine words).head? = some '"' := by
  cases words with
  | nil => rfl
  | cons word words =>
    rw [evalLine, List.map_cons, List.map_cons, List.intercalate_cons_cons]
    rfl

theorem getLast?_evalLine (words : List Text) : (evalLine words).getLast? = some '"' := by
  obtain absurd | ⟨init, last, split⟩ := List.eq_nil_or_concat' ("eval".toList :: words)
  · cases absurd
  rw [evalLine, split, List.map_append, List.map_singleton]
  obtain ⟨front, eq⟩ := exists_intercalate_concat [' '] (init.map Shell.quoteWord)
    (Shell.quoteWord last)
  rw [eq, Shell.quoteWord, List.getLast?_append_of_ne_nil _ (by simp),
    List.getLast?_concat]

theorem mem_evalLine {words : List Text} {c : Char} (member : c ∈ evalLine words) :
    c ∈ "\"eval \\".toList ∨ ∃ word ∈ words, c ∈ word := by
  have marks : ∀ c ∈ ['"', '\\'], c ∈ "\"eval \\".toList := by simp
  have command : ∀ c ∈ "eval".toList, c ∈ "\"eval \\".toList := by simp
  rcases mem_intercalate member with rfl | ⟨quoted, origin, inside⟩
  · exact .inl (by decide)
  obtain ⟨word, listed, rfl⟩ := List.mem_map.1 origin
  rcases Shell.mem_of_mem_quoteWord inside with mark | inside
  · exact .inl (marks c mark)
  rcases List.mem_cons.1 listed with rfl | argument
  · exact .inl (command c inside)
  · exact .inr ⟨word, argument, inside⟩

theorem statusText_eq : statusText = ['2', '5', '3'] := rfl

/-- What acceptance says of each setting. -/
theorem accepted_settings (l : Launcher) : l.interpreters ≠ [] ∧
    (∀ interpreter ∈ l.interpreters, isCommand interpreter) ∧ isModule l.runtimeModule ∧
    isHint l.hint := by
  have accepted := l.accepted
  unfold refusal? at accepted
  split at accepted
  · cases accepted
  split at accepted
  · cases accepted
  rename_i some _ commands
  split at accepted
  · cases accepted
  split at accepted
  · cases accepted
  simp_all [List.find?_eq_none]

theorem not_mem_of_isCommand {name : Text} (command : isCommand name) {c : Char}
    (other : isCommandChar c = false) : c ∉ name := by
  cases name with
  | nil => exact List.not_mem_nil
  | cons d rest =>
    simp only [isCommand, Bool.and_eq_true, List.all_eq_true] at command
    intro member
    have accepted : isCommandChar c := by
      rcases List.mem_cons.1 member with rfl | member
      · exact command.1.1
      · exact command.2 c member
    rw [other] at accepted
    cases accepted

theorem not_mem_of_isModule {name : Text} (dotted : isModule name) {c : Char}
    (other : c.isAlphanum = false ∧ c ≠ '_' ∧ c ≠ '.') : c ∉ name := by
  intro member
  rw [← intercalate_split '.' name] at member
  rcases mem_intercalate member with dot | ⟨part, origin, inside⟩
  · exact other.2.2 dot
  have identifier := List.all_eq_true.1 dotted part origin
  have noLetter : c.isAlpha = false := by
    have := other.1
    rw [Char.isAlphanum, Bool.or_eq_false_iff] at this
    exact this.1
  cases part with
  | nil => cases inside
  | cons d rest =>
    simp only [isIdentifier, Bool.and_eq_true, List.all_eq_true] at identifier
    rcases List.mem_cons.1 inside with rfl | inside
    · simp [noLetter, other.2.1] at identifier
    · have := identifier.2 c inside
      simp [other.1, other.2.1] at this

theorem not_mem_of_isHint {hint : Text} (accepted : isHint hint) {c : Char}
    (excluded : c ∈ hintExcluded) : c ∉ hint := by
  intro member
  have := List.all_eq_true.1 accepted c member
  simp [excluded] at this

def foreign : List Char := ['\n', '\r', '\\', '\x60']

theorem of_mem_foreign : ∀ c ∈ foreign,
    isCommandChar c = false ∧ (c.isAlphanum = false ∧ c ≠ '_' ∧ c ≠ '.') ∧ c ∈ hintExcluded := by
  simp only [foreign, List.mem_cons, List.not_mem_nil, or_false, forall_eq_or_imp, forall_eq]
  decide

section Foreign

variable {c : Char} (outside : c ∈ foreign)
include outside

theorem not_mem_runtimeModule (l : Launcher) : c ∉ l.runtimeModule :=
  not_mem_of_isModule l.accepted_settings.2.2.1 (of_mem_foreign c outside).2.1

theorem not_mem_hint (l : Launcher) : c ∉ l.hint :=
  not_mem_of_isHint l.accepted_settings.2.2.2 (of_mem_foreign c outside).2.2

theorem not_mem_failureReport (l : Launcher) : ∀ word ∈ l.failureReport, c ∉ word := by
  have runtimeModule := not_mem_runtimeModule outside l
  have hint := not_mem_hint outside l
  simp only [foreign, List.mem_cons, List.not_mem_nil, or_false] at outside
  rcases outside with rfl | rfl | rfl | rfl <;>
    simp [failureReport, statusText_eq, runtimeModule, hint]

end Foreign

/-- A lookup has backquotes of its own. -/
theorem not_mem_attempt {c : Char} (other : c ∈ ['\n', '\r', '\\', '\x00']) {l : Launcher}
    {interpreter : Text} (listed : interpreter ∈ l.interpreters) :
    ∀ word ∈ attempt interpreter, c ∉ word := by
  have outside : ∀ c ∈ ['\n', '\r', '\\', '\x00'], isCommandChar c = false := by
    simp only [List.mem_cons, List.not_mem_nil, or_false, forall_eq_or_imp, forall_eq]
    decide
  have absent := not_mem_of_isCommand (l.accepted_settings.2.1 _ listed) (outside c other)
  simp only [List.mem_cons, List.not_mem_nil, or_false] at other
  rcases other with rfl | rfl | rfl | rfl <;> simp [attempt, statusText_eq, absent]

theorem isCode_runtimeModule (l : Launcher) : l.runtimeModule.IsCode := by
  have other : ∀ c ∈ ['\\', '"', '\r', '\x00'], c.isAlphanum = false ∧ c ≠ '_' ∧ c ≠ '.' := by
    simp only [List.mem_cons, List.not_mem_nil, or_false, forall_eq_or_imp, forall_eq]
    decide
  apply Text.isCode_of_all
  rw [List.all_eq_true]
  intro c inside
  rw [decide_eq_true_iff]
  exact fun special => not_mem_of_isModule l.accepted_settings.2.2.1 (other c special) inside

theorem isCode_of_mem_programLines {l : Launcher} {distributable : Bool} {line : Line}
    (member : line ∈ l.programLines distributable) : line.IsCode := by
  have runtimeModule := l.isCode_runtimeModule
  cases distributable with
  | false =>
    simp only [programLines, Bool.false_eq_true, ↓reduceIte, List.mem_cons, List.not_mem_nil,
      or_false] at member
    rcases member with rfl | rfl | rfl | rfl | rfl | rfl
    · exact Text.isCode_of_all (by decide)
    · exact Text.isCode_of_all (by decide)
    · exact (Text.isCode_of_all (by decide)).append runtimeModule
    · exact Text.isCode_of_all (by decide)
    · exact Text.isCode_of_all (by decide)
    · exact runtimeModule.append (Text.isCode_of_all (by decide))
  | true =>
    simp only [programLines, ↓reduceIte, List.mem_cons, List.not_mem_nil, or_false] at member
    rcases member with rfl | rfl | rfl | rfl | rfl | rfl | rfl | rfl | rfl | rfl
    · exact Text.isCode_of_all (by decide)
    · exact Text.isCode_of_all (by decide)
    · exact Text.isCode_of_all (by decide)
    · exact Text.isCode_of_all (by decide)
    · exact Text.isCode_of_all (by decide)
    · have cut : "\\n', 1)[1])))".toList = ['\\', 'n'] ++ "', 1)[1])))".toList := by decide
      rw [cut]
      exact (Text.isCode_of_all (by decide)).append
        (Text.isCode_escape.append (Text.isCode_of_all (by decide)))
    · exact Text.isCode_of_all (by decide)
    · exact Text.isCode_of_all (by decide)
    · exact (Text.isCode_of_all (by decide)).append runtimeModule
    · exact ((Text.isCode_of_all (by decide)).append runtimeModule).append
        (Text.isCode_of_all (by decide))

/-- The only escape in the program is that of a line break. -/
theorem isCode_program (l : Launcher) (distributable : Bool) :
    (l.program distributable).IsCode := by
  have lines : ∀ line ∈ l.programLines distributable, line.IsCode :=
    fun line => isCode_of_mem_programLines
  rw [program]
  generalize l.programLines distributable = code at lines
  induction code with
  | nil => exact fun p member => absurd member List.not_mem_nil
  | cons line code ih =>
    rw [List.flatMap_cons]
    exact ((lines line (List.mem_cons_self ..)).append (Text.isCode_of_all (by decide))).append
      (ih fun other member => lines other (List.mem_cons_of_mem _ member))

/-- The value of the program is one line. -/
theorem not_mem_programValue {c : Char} (other : c ∈ ['\n', '\r', '\x00']) (l : Launcher)
    (distributable : Bool) : c ∉ l.programValue distributable := by
  have written : ∀ c ∈ ['\n', '\r', '\x00'], c ∉ ['\\', 'n'] := by simp
  rw [programValue, List.mem_flatMap]
  rintro ⟨d, origin, inside⟩
  split at inside
  · exact written c other inside
  · rename_i noFeed
    obtain rfl := List.mem_singleton.1 inside
    rcases Shell.mem_of_mem_escapeBackslashes origin with rfl | inside
    · exact written _ other (by decide)
    · exact (l.isCode_program distributable).not_mem (by simpa [noFeed] using other) inside

/-- No setting brings a line break into a statement. -/
theorem not_mem_of_mem_statements {c : Char} (lineBreak : c = '\n' ∨ c = '\r') {l : Launcher}
    {distributable : Bool} {words : List Text} {word : Text}
    (statement : words ∈ l.statements distributable) (member : word ∈ words) : c ∉ word := by
  have outside : c ∈ foreign ∧ c ∈ ['\n', '\r', '\\', '\x00'] ∧ c ∈ ['\n', '\r', '\x00'] := by
    rcases lineBreak with rfl | rfl <;> decide
  simp only [statements, List.cons_append, List.mem_cons, List.mem_append, List.mem_map,
    List.not_mem_nil, or_false] at statement
  rcases statement with rfl | ⟨interpreter, listed, rfl⟩ | rfl | rfl
  · have value := not_mem_programValue outside.2.2 l distributable
    simp only [assignment, List.mem_cons, List.not_mem_nil, or_false] at member
    rcases member with rfl | rfl | rfl
    · rcases lineBreak with rfl | rfl <;> simp [value]
    · rcases lineBreak with rfl | rfl <;> decide
    · rcases lineBreak with rfl | rfl <;> decide
  · exact not_mem_attempt outside.2.1 listed word member
  · exact not_mem_failureReport outside.1 l word member
  · simp only [exitStatement, List.mem_cons, List.not_mem_nil, or_false] at member
    rcases lineBreak with rfl | rfl <;> rcases member with rfl | rfl <;> decide

theorem not_mem_of_mem_lines {c : Char} (lineBreak : c = '\n' ∨ c = '\r') {l : Launcher}
    {distributable : Bool} {line : Line} (member : line ∈ l.lines distributable) : c ∉ line := by
  obtain ⟨words, statement, rfl⟩ := List.mem_map.1 member
  intro inside
  rcases mem_evalLine inside with own | ⟨word, listed, inside⟩
  · rcases lineBreak with rfl | rfl <;> revert own <;> decide
  · exact not_mem_of_mem_statements lineBreak statement listed inside

theorem isPlain_of_mem_lines {l : Launcher} {distributable : Bool} {line : Line}
    (member : line ∈ l.lines distributable) : line.IsPlain where
  noFeed := not_mem_of_mem_lines (.inl rfl) member
  noReturn last := not_mem_of_mem_lines (.inr rfl) member (List.mem_of_getLast? last)

/-- A line that starts with a quote is no marker. -/
theorem not_opening_evalLine (words : List Text) : ¬Marker.startOpening <+: evalLine words := by
  rintro ⟨rest, opened⟩
  have first := head?_evalLine words
  rw [← opened] at first
  cases first

theorem finish?_of_mem_lines {l : Launcher} {distributable : Bool} {line : Line}
    (member : line ∈ l.lines distributable) : Marker.finish? line = none := by
  obtain ⟨words, _, rfl⟩ := List.mem_map.1 member
  exact Marker.finish?_of_not_opening (not_opening_evalLine words)

end Launcher
end Bootscript
