import Bootscript.Launcher.Settings
import Bootscript.Proofs.Lines
import Bootscript.Proofs.Pattern

/-! Which settings a launcher takes. Names are told by their characters, and by the patterns
that they match; if any setting does not have its form, the first that has not is refused. -/
namespace Bootscript.Launcher

open Ascii Pattern
open scoped Computability

def OpensCommand (c : Char) : Prop := IsLetter c ∨ IsDigit c ∨ c ∈ ['_', '.', '/', '+']

def IsInCommand (c : Char) : Prop := OpensCommand c ∨ c = '-'

def OpensIdentifier (c : Char) : Prop := IsLetter c ∨ c = '_'

def IsInIdentifier (c : Char) : Prop := IsLetter c ∨ IsDigit c ∨ c = '_'

instance : DecidablePred OpensCommand := fun _ => inferInstanceAs (Decidable (_ ∨ _))
instance : DecidablePred IsInCommand := fun _ => inferInstanceAs (Decidable (_ ∨ _))
instance : DecidablePred OpensIdentifier := fun _ => inferInstanceAs (Decidable (_ ∨ _))
instance : DecidablePred IsInIdentifier := fun _ => inferInstanceAs (Decidable (_ ∨ _))

/-- A name or path of a command that cannot be taken for an option. -/
structure IsCommandName (name : Text) : Prop where
  nonempty : name ≠ []
  clear : ∀ c ∈ name, IsInCommand c
  noOption : name.head? ≠ some '-'

def IsIdentifier (name : Text) : Prop :=
  ∃ c rest, OpensIdentifier c ∧ (∀ d ∈ rest, IsInIdentifier d) ∧ name = c :: rest

/-- One identifier, or more with a dot between each two of them. -/
def IsDottedName (name : Text) : Prop :=
  ∃ parts ≠ [], (∀ part ∈ parts, IsIdentifier part) ∧ name = ['.'].intercalate parts

def IsQuotable (hint : Text) : Prop := ∀ c ∈ ['"', '\x60', '\\', '\n', '\r'], c ∉ hint

/-- The pattern `[A-Za-z0-9_./+][A-Za-z0-9_./+-]*`. -/
def commandPattern : Language Char := one OpensCommand * (one IsInCommand)∗

/-- The pattern `[A-Za-z_][A-Za-z0-9_]*`. -/
def identifierPattern : Language Char := one OpensIdentifier * (one IsInIdentifier)∗

/-- The pattern `[A-Za-z_][A-Za-z0-9_]*(\.[A-Za-z_][A-Za-z0-9_]*)*`. -/
def modulePattern : Language Char := identifierPattern * (fixed ['.'] * identifierPattern)∗

section Names

variable {name : Text}

theorem mem_commandPattern : name ∈ commandPattern ↔ IsCommandName name := by
  simp only [commandPattern, mem_one_mul, mem_kstar_one]
  constructor
  · rintro ⟨c, rest, first, others, rfl⟩
    have other : c ≠ '-' := by rintro rfl; exact absurd first (by decide)
    exact ⟨List.cons_ne_nil c rest, List.forall_mem_cons.2 ⟨.inl first, others⟩,
      by simpa using other⟩
  · rintro ⟨nonempty, clear, noOption⟩
    obtain ⟨c, rest, rfl⟩ := List.exists_cons_of_ne_nil nonempty
    obtain ⟨first, others⟩ := List.forall_mem_cons.1 clear
    have other : c ≠ '-' := by simpa using noOption
    exact ⟨c, rest, first.resolve_right other, others, rfl⟩

theorem mem_identifierPattern : name ∈ identifierPattern ↔ IsIdentifier name := by
  simp only [identifierPattern, IsIdentifier, mem_one_mul, mem_kstar_one]

theorem mem_modulePattern : name ∈ modulePattern ↔ IsDottedName name := by
  simp only [modulePattern, IsDottedName, mem_mul_kstar_fixed_mul, mem_identifierPattern]

theorem isCommandChar_iff (c : Char) : isCommandChar c ↔ IsInCommand c := by
  simp only [isCommandChar, IsInCommand, OpensCommand, Bool.or_eq_true, isAlphanum_iff,
    List.contains_iff_mem, List.mem_cons, List.not_mem_nil, or_false]
  tauto

theorem isCommand_iff : isCommand name ↔ IsCommandName name := by
  cases name with
  | nil =>
    exact ⟨fun checked => absurd checked Bool.false_ne_true, fun named => absurd rfl named.nonempty⟩
  | cons c rest =>
    simp only [isCommand, Bool.and_eq_true, List.all_eq_true, isCommandChar_iff, bne_iff_ne]
    constructor
    · rintro ⟨⟨first, other⟩, others⟩
      exact ⟨List.cons_ne_nil c rest, List.forall_mem_cons.2 ⟨first, others⟩, by simpa using other⟩
    · rintro ⟨_, clear, noOption⟩
      obtain ⟨first, others⟩ := List.forall_mem_cons.1 clear
      exact ⟨⟨first, by simpa using noOption⟩, others⟩

theorem isIdentifier_iff : isIdentifier name ↔ IsIdentifier name := by
  cases name with
  | nil => exact ⟨nofun, fun ⟨_, _, _, _, same⟩ => nomatch same⟩
  | cons c rest =>
    simp only [isIdentifier, IsIdentifier, OpensIdentifier, IsInIdentifier, Bool.and_eq_true,
      Bool.or_eq_true, List.all_eq_true, isAlpha_iff, isAlphanum_iff, beq_iff_eq, or_assoc,
      List.cons.injEq]
    constructor
    · rintro ⟨first, others⟩
      exact ⟨c, rest, first, others, rfl, rfl⟩
    · rintro ⟨_, _, first, others, rfl, rfl⟩
      exact ⟨first, others⟩

theorem IsIdentifier.clear (named : IsIdentifier name) {c : Char} (member : c ∈ name) :
    IsInIdentifier c := by
  obtain ⟨d, rest, first, others, rfl⟩ := named
  rcases List.mem_cons.1 member with rfl | member
  · exact first.imp_right .inr
  · exact others c member

theorem IsIdentifier.noDot (named : IsIdentifier name) : '.' ∉ name :=
  fun member => absurd (named.clear member) (by decide)

theorem split_of_identifiers {parts : List Text} (nonempty : parts ≠ [])
    (named : ∀ part ∈ parts, IsIdentifier part) : split '.' (['.'].intercalate parts) = parts :=
  split_intercalate (fun part member => (named part member).noDot) nonempty

theorem isModule_iff : isModule name ↔ IsDottedName name := by
  simp only [isModule, List.all_eq_true, isIdentifier_iff]
  constructor
  · intro named
    exact ⟨split '.' name, split_ne_nil '.' name, named, (intercalate_split '.' name).symm⟩
  · rintro ⟨parts, nonempty, named, rfl⟩
    rwa [split_of_identifiers nonempty named]

theorem isHint_iff : isHint name ↔ IsQuotable name := by
  simp only [isHint, IsQuotable, hintExcluded, List.all_eq_true, Bool.not_eq_true',
    List.contains_eq_mem, decide_eq_false_iff_not]
  exact ⟨fun clear c listed member => clear c member listed,
    fun clear c member listed => clear c listed member⟩

def IsPlainChar (c : Char) : Prop := c.toNat < 128 ∧ c ≠ '\n' ∧ c ≠ '\r'

instance : DecidablePred IsPlainChar := fun _ => inferInstanceAs (Decidable (_ ∧ _))

theorem isPlainChar_of_isInCommand {c : Char} (inside : IsInCommand c) : IsPlainChar c := by
  refine ⟨?_, ?_, ?_⟩
  · rcases inside with (letter | digit | mark) | rfl
    · exact letter.toNat_lt
    · exact digit.toNat_lt
    · simp only [List.mem_cons, List.not_mem_nil, or_false] at mark
      rcases mark with rfl | rfl | rfl | rfl <;> decide
    · decide
  · rintro rfl
    exact absurd inside (by decide)
  · rintro rfl
    exact absurd inside (by decide)

theorem isPlainChar_of_isInIdentifier {c : Char} (inside : IsInIdentifier c) : IsPlainChar c := by
  apply isPlainChar_of_isInCommand
  rcases inside with letter | digit | rfl
  · exact .inl (.inl letter)
  · exact .inl (.inr (.inl digit))
  · decide

theorem IsDottedName.isPlainChar (named : IsDottedName name) {c : Char} (member : c ∈ name) :
    IsPlainChar c := by
  obtain ⟨parts, _, identifiers, rfl⟩ := named
  rcases mem_intercalate member with rfl | ⟨part, origin, inside⟩
  · decide
  · exact isPlainChar_of_isInIdentifier ((identifiers part origin).clear inside)

theorem IsDottedName.nil_not_mem (named : IsDottedName name) : [] ∉ split '.' name := by
  obtain ⟨parts, nonempty, identifiers, rfl⟩ := named
  rw [split_of_identifiers nonempty identifiers]
  intro empty
  obtain ⟨_, _, _, _, same⟩ := identifiers [] empty
  cases same

end Names

section Choice

variable {interpreters : List Text} {runtimeModule hint : Text}

structure IsAcceptable (interpreters : List Text) (runtimeModule hint : Text) : Prop where
  listed : interpreters ≠ []
  commands : ∀ name ∈ interpreters, IsCommandName name
  dotted : IsDottedName runtimeModule
  quotable : IsQuotable hint

/-- The first setting that does not have its form, with its value: the list itself, then its
members in order, then the module, then the hint. -/
inductive IsFirstOffence (interpreters : List Text) (runtimeModule hint : Text) : Refusal → Prop
  | interpreters (none : interpreters = []) :
    IsFirstOffence interpreters runtimeModule hint ⟨.interpreters, []⟩
  | interpreter {before name after} (found : interpreters = before ++ name :: after)
    (commands : ∀ other ∈ before, IsCommandName other) (offends : ¬IsCommandName name) :
    IsFirstOffence interpreters runtimeModule hint ⟨.interpreter, name⟩
  | runtimeModule (listed : interpreters ≠ [])
    (commands : ∀ name ∈ interpreters, IsCommandName name)
    (offends : ¬IsDottedName runtimeModule) :
    IsFirstOffence interpreters runtimeModule hint ⟨.runtimeModule, runtimeModule⟩
  | hint (listed : interpreters ≠ [])
    (commands : ∀ name ∈ interpreters, IsCommandName name)
    (dotted : IsDottedName runtimeModule) (offends : ¬IsQuotable hint) :
    IsFirstOffence interpreters runtimeModule hint ⟨.hint, hint⟩

theorem find?_eq_none_iff : interpreters.find? (fun name => !isCommand name) = none ↔
    ∀ name ∈ interpreters, IsCommandName name := by
  simp only [List.find?_eq_none, Bool.not_eq_true', Bool.not_eq_false, isCommand_iff]

theorem find?_eq_some_iff {name : Text} :
    interpreters.find? (fun name => !isCommand name) = some name ↔
      ¬IsCommandName name ∧ ∃ before after, interpreters = before ++ name :: after ∧
        ∀ other ∈ before, IsCommandName other := by
  simp only [List.find?_eq_some_iff_append, Bool.not_not, isCommand_iff, Bool.not_eq_true',
    ← Bool.not_eq_true]

theorem isAcceptable_or_isFirstOffence (interpreters : List Text) (runtimeModule hint : Text) :
    IsAcceptable interpreters runtimeModule hint ∨
      ∃ refusal, IsFirstOffence interpreters runtimeModule hint refusal := by
  by_cases none : interpreters = []
  · exact .inr ⟨_, .interpreters none⟩
  cases found : interpreters.find? fun name => !isCommand name with
  | some name =>
    obtain ⟨offends, _, _, same, commands⟩ := find?_eq_some_iff.1 found
    exact .inr ⟨_, .interpreter same commands offends⟩
  | none =>
    have commands := find?_eq_none_iff.1 found
    by_cases dotted : IsDottedName runtimeModule
    · by_cases quotable : IsQuotable hint
      · exact .inl ⟨none, commands, dotted, quotable⟩
      · exact .inr ⟨_, .hint none commands dotted quotable⟩
    · exact .inr ⟨_, .runtimeModule none commands dotted⟩

theorem IsAcceptable.refusal?_eq (acceptable : IsAcceptable interpreters runtimeModule hint) :
    refusal? interpreters runtimeModule hint = none := by
  obtain ⟨listed, commands, dotted, quotable⟩ := acceptable
  simp [refusal?, listed, find?_eq_none_iff.2 commands, isModule_iff.2 dotted,
    isHint_iff.2 quotable]

theorem IsFirstOffence.refusal?_eq {refusal : Refusal}
    (first : IsFirstOffence interpreters runtimeModule hint refusal) :
    refusal? interpreters runtimeModule hint = some refusal := by
  cases first with
  | interpreters none => simp [refusal?, none]
  | @interpreter before name after found commands offends =>
    have listed : interpreters ≠ [] := by simp [found]
    simp [refusal?, listed, find?_eq_some_iff.2 ⟨offends, before, after, found, commands⟩]
  | runtimeModule listed commands offends =>
    simp [refusal?, listed, find?_eq_none_iff.2 commands, isModule_iff, offends]
  | hint listed commands dotted offends =>
    simp [refusal?, listed, find?_eq_none_iff.2 commands, isModule_iff.2 dotted, isHint_iff,
      offends]

theorem refusal?_eq_none_iff : refusal? interpreters runtimeModule hint = none ↔
    IsAcceptable interpreters runtimeModule hint := by
  refine ⟨fun accepted => ?_, IsAcceptable.refusal?_eq⟩
  obtain acceptable | ⟨refusal, first⟩ :=
    isAcceptable_or_isFirstOffence interpreters runtimeModule hint
  · exact acceptable
  · cases accepted.symm.trans first.refusal?_eq

theorem refusal?_eq_some_iff {refusal : Refusal} :
    refusal? interpreters runtimeModule hint = some refusal ↔
      IsFirstOffence interpreters runtimeModule hint refusal := by
  refine ⟨fun refused => ?_, IsFirstOffence.refusal?_eq⟩
  obtain acceptable | ⟨other, first⟩ :=
    isAcceptable_or_isFirstOffence interpreters runtimeModule hint
  · cases refused.symm.trans acceptable.refusal?_eq
  · cases refused.symm.trans first.refusal?_eq
    exact first

theorem make_eq_ok_iff {l : Launcher} : make interpreters runtimeModule hint = .ok l ↔
    l.interpreters = interpreters ∧ l.runtimeModule = runtimeModule ∧ l.hint = hint := by
  obtain ⟨interpreters', runtimeModule', hint', accepted⟩ := l
  unfold make
  split
  · rename_i refusal refused
    refine ⟨nofun, ?_⟩
    rintro ⟨rfl, rfl, rfl⟩
    cases accepted.symm.trans refused
  · simp only [Except.ok.injEq, Launcher.mk.injEq]
    exact ⟨fun ⟨same, same', same''⟩ => ⟨same.symm, same'.symm, same''.symm⟩,
      fun ⟨same, same', same''⟩ => ⟨same.symm, same'.symm, same''.symm⟩⟩

theorem make_eq_error_iff {refusal : Refusal} :
    make interpreters runtimeModule hint = .error refusal ↔
      refusal? interpreters runtimeModule hint = some refusal := by
  unfold make
  split
  · rename_i other refused
    rw [refused, Except.error.injEq, Option.some.injEq]
  · rename_i accepted
    exact ⟨nofun, fun refused => nomatch accepted.symm.trans refused⟩

/-- Settings are taken as they are, and exactly if each of them has its form: some
interpreters, each of which is a command name, a module of identifiers with single dots
between them, and a hint that can stand in double quotes. Else the first that has not is
refused with its value. No name that is taken holds a line break, a character outside of ASCII
or an empty part. The names are those that the patterns match. -/
theorem make_iff (interpreters : List Text) (runtimeModule hint : Text) :
    (∀ l, make interpreters runtimeModule hint = .ok l →
      l.interpreters = interpreters ∧ l.runtimeModule = runtimeModule ∧ l.hint = hint) ∧
    ((∃ l, make interpreters runtimeModule hint = .ok l) ↔
      IsAcceptable interpreters runtimeModule hint) ∧
    (∀ refusal, make interpreters runtimeModule hint = .error refusal ↔
      IsFirstOffence interpreters runtimeModule hint refusal) ∧
    (IsAcceptable interpreters runtimeModule hint →
      (∀ name ∈ runtimeModule :: interpreters, ∀ c ∈ name, IsPlainChar c) ∧
      [] ∉ interpreters ∧ [] ∉ split '.' runtimeModule) ∧
    (∀ name, IsCommandName name ↔ name ∈ commandPattern) ∧
    ∀ name, IsDottedName name ↔ name ∈ modulePattern := by
  refine ⟨fun l made => make_eq_ok_iff.1 made, ?_, ?_, ?_, fun _ => mem_commandPattern.symm,
    fun _ => mem_modulePattern.symm⟩
  · constructor
    · rintro ⟨l, made⟩
      obtain ⟨rfl, rfl, rfl⟩ := make_eq_ok_iff.1 made
      exact refusal?_eq_none_iff.1 l.accepted
    · intro acceptable
      exact ⟨⟨interpreters, runtimeModule, hint, acceptable.refusal?_eq⟩,
        make_eq_ok_iff.2 ⟨rfl, rfl, rfl⟩⟩
  · exact fun refusal => make_eq_error_iff.trans refusal?_eq_some_iff
  · rintro ⟨_, commands, dotted, _⟩
    refine ⟨List.forall_mem_cons.2 ⟨fun c member => dotted.isPlainChar member, ?_⟩,
      fun empty => (commands [] empty).nonempty rfl, dotted.nil_not_mem⟩
    intro name listed c member
    exact isPlainChar_of_isInCommand ((commands name listed).clear c member)

end Choice

end Bootscript.Launcher
