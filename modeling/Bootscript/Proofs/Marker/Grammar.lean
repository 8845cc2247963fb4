import Bootscript.Proofs.Marker
import Bootscript.Proofs.Pattern
import Bootscript.Script.Basic

/-! The marker lines told by their characters, and by the patterns that they match. The arrows
and the blanks around a name may be part of the name as well, but since they stand at fixed
places a line can be taken apart in one way only. -/
namespace Bootscript.Marker

open Ascii Pattern
open scoped Computability

def IsInName (c : Char) : Prop := IsLetter c ∨ IsDigit c ∨ c = ' ' ∨ c = '-'

def IsSectionName (name : Text) : Prop := name ≠ [] ∧ ∀ c ∈ name, IsInName c

def namePattern : Language Char := one IsInName * (one IsInName)∗

/-- The pattern `# ([A-Za-z0-9 -]+) -->`. -/
def startPattern : Language Char := fixed "# ".toList * (namePattern * fixed " -->".toList)

/-- The pattern `# <-- ([A-Za-z0-9 -]+)`. -/
def finishPattern : Language Char := fixed "# <-- ".toList * namePattern

theorem mem_namePattern {name : Text} : name ∈ namePattern ↔ IsSectionName name :=
  mem_one_mul_kstar_one

theorem isNameChar_iff (c : Char) : isNameChar c ↔ IsInName c := by
  simp only [isNameChar, IsInName, Bool.or_eq_true, isAlphanum_iff, beq_iff_eq, or_assoc]

theorem isName_iff {name : Text} : isName name ↔ IsSectionName name := by
  simp only [isName, IsSectionName, Bool.and_eq_true, Bool.not_eq_true', List.isEmpty_eq_false_iff,
    List.all_eq_true, isNameChar_iff]

theorem mem_startPattern {line : Line} :
    line ∈ startPattern ↔
      ∃ name, IsSectionName name ∧ line = "# ".toList ++ (name ++ " -->".toList) := by
  simp only [startPattern, mem_fixed_mul, mem_mul_fixed, mem_namePattern]
  constructor
  · rintro ⟨_, ⟨name, named, rfl⟩, rfl⟩
    exact ⟨name, named, rfl⟩
  · rintro ⟨name, named, rfl⟩
    exact ⟨_, ⟨name, named, rfl⟩, rfl⟩

theorem mem_finishPattern {line : Line} :
    line ∈ finishPattern ↔ ∃ name, IsSectionName name ∧ line = "# <-- ".toList ++ name := by
  simp only [finishPattern, mem_fixed_mul, mem_namePattern]

theorem start_injective {first second : Text} (same : start first = start second) :
    first = second :=
  List.append_cancel_left (List.append_cancel_right same)

theorem finish_injective {first second : Text} (same : finish first = finish second) :
    first = second :=
  List.append_cancel_left same

/-- The third character of a closing line is no part of a name. -/
theorem start_ne_finish {first : Text} (named : IsSectionName first) (second : Text) :
    start first ≠ finish second := by
  obtain ⟨c, rest, rfl⟩ := List.exists_cons_of_ne_nil named.1
  intro same
  have arrow : c = '<' := (List.cons.inj (List.cons.inj (List.cons.inj same).2).2).1
  have allowed := (isNameChar_iff c).2 (named.2 c (List.mem_cons_self ..))
  rw [arrow] at allowed
  cases allowed

theorem isSome_start?_iff {line : Line} : (start? line).isSome ↔ line ∈ startPattern := by
  simp only [Option.isSome_iff_exists, start?_eq_some_iff, isName_iff, mem_startPattern, start,
    startOpening, startClosing, List.append_assoc]
  rfl

theorem isSome_finish?_iff {line : Line} : (finish? line).isSome ↔ line ∈ finishPattern := by
  simp only [Option.isSome_iff_exists, Prod.exists, finish?_eq_some_iff, isName_iff,
    mem_finishPattern, finish, finishOpening]
  simp

/-- A line opens the section of a name just if it is `# NAME -->`, and closes it just if it is
`# <-- NAME`, with the name in column 7. The names are those of letters, digits, blanks and
dashes, whichever of them come where. So the markers of a section give its name back, and no
line opens and closes, or stands for two names. The lines are those of two patterns, and what
the group in a pattern holds is the name. -/
theorem markers_iff (line : Line) (s : Section) :
    (∀ name, start? line = some name ↔
      IsSectionName name ∧ line = "# ".toList ++ name ++ " -->".toList) ∧
    (∀ name column, finish? line = some (name, column) ↔
      IsSectionName name ∧ column = 7 ∧ line = "# <-- ".toList ++ name) ∧
    (IsSectionName s.name →
      start? s.startMarker = some s.name ∧ finish? s.endMarker = some (s.name, 7)) ∧
    (start? line = none ∨ finish? line = none) ∧
    (∀ first second, line = start first ∧ line = start second ∨
      line = finish first ∧ line = finish second → first = second) ∧
    ((start? line).isSome ↔ line ∈ startPattern) ∧
    ((finish? line).isSome ↔ line ∈ finishPattern) := by
  refine ⟨fun name => ?_, fun name column => ?_, fun named => ⟨?_, ?_⟩, ?_, ?_,
    isSome_start?_iff, isSome_finish?_iff⟩
  · rw [start?_eq_some_iff, isName_iff]
    rfl
  · rw [finish?_eq_some_iff, isName_iff]
    rfl
  · exact start?_eq_some_iff.2 ⟨isName_iff.2 named, rfl⟩
  · exact finish?_eq_some_iff.2 ⟨isName_iff.2 named, rfl, rfl⟩
  · by_contra both
    rw [not_or] at both
    obtain ⟨first, opened⟩ := Option.ne_none_iff_exists'.1 both.1
    obtain ⟨⟨second, column⟩, closed⟩ := Option.ne_none_iff_exists'.1 both.2
    obtain ⟨named, rfl⟩ := start?_eq_some_iff.1 opened
    obtain ⟨_, _, same⟩ := finish?_eq_some_iff.1 closed
    exact start_ne_finish (isName_iff.1 named) second same
  · rintro first second (⟨rfl, same⟩ | ⟨rfl, same⟩)
    · exact start_injective same
    · exact finish_injective same

/-- A name that ends like the arrow behind it, and one that is all arrow. -/
theorem markers_iff_dashes :
    let s : Section := ⟨[], "Notes --".toList, []⟩
    let dashes : Section := ⟨[], " -- ".toList, []⟩
    (IsSectionName s.name ∧ IsSectionName dashes.name) ∧
      (start? "# Notes -- -->".toList = some s.name ∧
        finish? "# <-- Notes --".toList = some (s.name, 7)) ∧
      start? "#  --  -->".toList = some dashes.name ∧
        finish? "# <--  -- ".toList = some (dashes.name, 7) := by
  intro s dashes
  have named : IsSectionName s.name := isName_iff.1 rfl
  have named' : IsSectionName dashes.name := isName_iff.1 rfl
  obtain ⟨_, _, given, _⟩ := markers_iff [] s
  obtain ⟨_, _, given', _⟩ := markers_iff [] dashes
  exact ⟨⟨named, named'⟩, given named, given' named'⟩

end Bootscript.Marker
