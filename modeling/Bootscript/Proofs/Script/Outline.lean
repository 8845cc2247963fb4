import Bootscript.Proofs.Json
import Bootscript.Script.Outline

/-! The outline of a script tells all that it shows. Lines of a script may look like the JSON
around them, but they stand in strings, and each part of the outline shows where it ends. -/
namespace Bootscript

open Json

theorem isDelimited_linesJson (level : Nat) : IsDelimited (Script.linesJson level) :=
  isDelimited_string.array level

theorem isDelimited_sectionJson (level : Nat) : IsDelimited (Script.sectionJson level) := by
  rintro ⟨leading, name, content⟩ ⟨leading', name', content'⟩ u v same
  have lines := isDelimited_linesJson (level + 1)
  obtain ⟨fields, ends⟩ := object_append_inj
    (.cons (fun _ => lines.apart leading leading')
      (.cons (fun _ => isDelimited_string.apart name name')
        (.cons (fun _ => lines.apart content content') .nil))) same
  simp only [List.cons.injEq, Prod.mk.injEq, true_and, and_true] at fields
  obtain rfl := lines.injective fields.1
  obtain rfl := isDelimited_string.injective fields.2.1
  obtain rfl := lines.injective fields.2.2
  exact ⟨rfl, ends⟩

/-- Two scripts have one outline just if they agree in everything but what lines are embedded,
if any are. -/
theorem Script.outline_eq_iff (s s' : Script) : s.outline = s'.outline ↔
    s.directive = s'.directive ∧ s.sections = s'.sections ∧ s.content = s'.content ∧
      s.embedded.isSome = s'.embedded.isSome := by
  have flags := isDelimited_bool
  have lines := isDelimited_linesJson 1
  have sections := (isDelimited_sectionJson 2).array 1
  constructor
  · intro same
    obtain ⟨fields, _⟩ := object_append_inj
      (.cons (fun _ => flags.apart s.directive s'.directive)
        (.cons (fun _ => sections.apart s.sections s'.sections)
          (.cons (fun _ => lines.apart s.content s'.content)
            (.cons (fun _ => flags.apart s.isDistributable s'.isDistributable) .nil))))
      (congrArg (· ++ []) same)
    simp only [List.cons.injEq, Prod.mk.injEq, true_and, and_true] at fields
    exact ⟨flags.injective fields.1, sections.injective fields.2.1,
      lines.injective fields.2.2.1, flags.injective fields.2.2.2⟩
  · rintro ⟨directive, sections, content, distributable⟩
    simp only [outline, isDistributable, directive, sections, content, distributable]

end Bootscript
