import Bootscript.Marker
import Bootscript.Proofs.Lines

/-! Markers and names determine each other: each marker line opens or closes exactly one
section, and no line does both. -/
namespace Bootscript.Marker

theorem after?_eq_some_iff {opening line rest : Text} :
    after? opening line = some rest ↔ line = opening ++ rest := by
  simp only [after?]
  constructor
  · intro found
    split at found
    · rename_i opened
      obtain ⟨tail, rfl⟩ := List.isPrefixOf_iff_prefix.1 opened
      simpa using found
    · cases found
  · rintro rfl
    simp

theorem before?_eq_some_iff {closing line name : Text} :
    before? closing line = some name ↔ line = name ++ closing := by
  simp only [before?]
  constructor
  · intro found
    split at found
    · rename_i closed
      obtain ⟨front, rfl⟩ := List.isSuffixOf_iff_suffix.1 closed
      simpa using found
    · cases found
  · rintro rfl
    simp

theorem start?_eq_some_iff {line name : Text} :
    start? line = some name ↔ isName name ∧ line = start name := by
  simp only [start?, Option.bind_eq_some_iff, after?_eq_some_iff, before?_eq_some_iff]
  constructor
  · rintro ⟨rest, rfl, name, rfl, accepted⟩
    split at accepted
    · rename_i valid
      obtain rfl := Option.some.inj accepted
      exact ⟨valid, (List.append_assoc ..).symm⟩
    · cases accepted
  · rintro ⟨valid, rfl⟩
    exact ⟨_, List.append_assoc .., name, rfl, if_pos valid⟩

theorem finish?_eq_some_iff {line name : Text} {column : Nat} :
    finish? line = some (name, column) ↔ isName name ∧ column = 7 ∧ line = finish name := by
  simp only [finish?, Option.bind_eq_some_iff, after?_eq_some_iff]
  constructor
  · rintro ⟨name, rfl, accepted⟩
    split at accepted
    · rename_i valid
      obtain ⟨rfl, rfl⟩ := Prod.mk.inj (Option.some.inj accepted)
      exact ⟨valid, rfl, rfl⟩
    · cases accepted
  · rintro ⟨valid, rfl, rfl⟩
    exact ⟨name, rfl, if_pos valid⟩

/-- Lines that do not start with a number sign and a space are no markers. -/
theorem start?_of_not_opening {line : Text} (other : ¬startOpening <+: line) :
    start? line = none := by
  by_contra marker
  obtain ⟨name, marker⟩ := Option.ne_none_iff_exists'.1 marker
  obtain ⟨_, rfl⟩ := start?_eq_some_iff.1 marker
  exact other ⟨name ++ startClosing, (List.append_assoc ..).symm⟩

theorem finish?_of_not_opening {line : Text} (other : ¬startOpening <+: line) :
    finish? line = none := by
  by_contra marker
  obtain ⟨⟨name, column⟩, marker⟩ := Option.ne_none_iff_exists'.1 marker
  obtain ⟨_, _, rfl⟩ := finish?_eq_some_iff.1 marker
  exact other ⟨['<', '-', '-', ' '] ++ name, rfl⟩

theorem isNameChar_of_mem {name : Text} (valid : isName name) {c : Char} (member : c ∈ name) :
    isNameChar c := by
  rw [isName, Bool.and_eq_true, List.all_eq_true] at valid
  exact valid.2 c member

theorem not_mem_name {name : Text} (valid : isName name) {c : Char}
    (other : isNameChar c = false) : c ∉ name := by
  intro member
  rw [isNameChar_of_mem valid member] at other
  cases other

theorem isPlain_start {name : Text} (valid : isName name) : Line.IsPlain (start name) where
  noFeed := by simp [start, startOpening, startClosing, not_mem_name valid (c := '\n') rfl]
  noReturn := by simp [start, startClosing]

theorem isPlain_finish {name : Text} (valid : isName name) : Line.IsPlain (finish name) where
  noFeed := by simp [finish, finishOpening, not_mem_name valid (c := '\n') rfl]
  noReturn last := by
    have nonempty : name ≠ [] := by rintro rfl; cases valid
    rw [finish, List.getLast?_append_of_ne_nil _ nonempty] at last
    exact not_mem_name valid (c := '\r') rfl (List.mem_of_getLast? last)

end Bootscript.Marker
