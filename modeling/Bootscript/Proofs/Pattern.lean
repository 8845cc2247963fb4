import Bootscript.Proofs.Piece
import Mathlib.Computability.Language

/-! Patterns that a whole text must match, as languages: characters of a class and fixed texts,
one behind the other or repeated. What such a pattern matches is told by the characters and the
parts of the text. -/
namespace Bootscript

namespace Ascii

def IsLetter (c : Char) : Prop := 'A' ≤ c ∧ c ≤ 'Z' ∨ 'a' ≤ c ∧ c ≤ 'z'

def IsDigit (c : Char) : Prop := '0' ≤ c ∧ c ≤ '9'

instance : DecidablePred IsLetter := fun _ => inferInstanceAs (Decidable (_ ∨ _))
instance : DecidablePred IsDigit := fun _ => inferInstanceAs (Decidable (_ ∧ _))

theorem isAlpha_iff (c : Char) : c.isAlpha ↔ IsLetter c := by
  have upper : c.isUpper ↔ 'A' ≤ c ∧ c ≤ 'Z' := decide_eq_true_iff
  have lower : c.isLower ↔ 'a' ≤ c ∧ c ≤ 'z' :=
    Bool.and_eq_true_iff.trans (and_congr decide_eq_true_iff decide_eq_true_iff)
  exact Bool.or_eq_true_iff.trans (or_congr upper lower)

theorem isAlphanum_iff (c : Char) : c.isAlphanum ↔ IsLetter c ∨ IsDigit c := by
  have digit : c.isDigit ↔ IsDigit c :=
    Bool.and_eq_true_iff.trans (and_congr decide_eq_true_iff decide_eq_true_iff)
  exact Bool.or_eq_true_iff.trans (or_congr (isAlpha_iff c) digit)

theorem IsLetter.toNat_lt {c : Char} (letter : IsLetter c) : c.toNat < 128 := by
  rcases letter with ⟨_, upper⟩ | ⟨_, lower⟩
  · exact Nat.lt_of_le_of_lt (UInt32.le_iff_toNat_le.1 upper) (by decide)
  · exact Nat.lt_of_le_of_lt (UInt32.le_iff_toNat_le.1 lower) (by decide)

theorem IsDigit.toNat_lt {c : Char} (digit : IsDigit c) : c.toNat < 128 :=
  Nat.lt_of_le_of_lt (UInt32.le_iff_toNat_le.1 digit.2) (by decide)

end Ascii

namespace Pattern

open Computability

def one (p : Char → Prop) : Language Char := {text | ∃ c, p c ∧ text = [c]}

def fixed (text : Text) : Language Char := {text}

variable {p : Char → Prop} {language : Language Char} {text : Text}

theorem mem_one_mul :
    text ∈ one p * language ↔ ∃ c rest, p c ∧ rest ∈ language ∧ text = c :: rest := by
  rw [Language.mem_mul]
  constructor
  · rintro ⟨_, ⟨c, accepted, rfl⟩, rest, matched, rfl⟩
    exact ⟨c, rest, accepted, matched, rfl⟩
  · rintro ⟨c, rest, accepted, matched, rfl⟩
    exact ⟨[c], ⟨c, accepted, rfl⟩, rest, matched, rfl⟩

theorem mem_fixed_mul {front : Text} :
    text ∈ fixed front * language ↔ ∃ rest ∈ language, text = front ++ rest := by
  rw [Language.mem_mul]
  constructor
  · rintro ⟨_, rfl, rest, matched, rfl⟩
    exact ⟨rest, matched, rfl⟩
  · rintro ⟨rest, matched, rfl⟩
    exact ⟨front, rfl, rest, matched, rfl⟩

theorem mem_mul_fixed {back : Text} :
    text ∈ language * fixed back ↔ ∃ front ∈ language, text = front ++ back := by
  rw [Language.mem_mul]
  constructor
  · rintro ⟨front, matched, _, rfl, rfl⟩
    exact ⟨front, matched, rfl⟩
  · rintro ⟨front, matched, rfl⟩
    exact ⟨front, matched, back, rfl, rfl⟩

theorem mem_kstar_one : text ∈ (one p)∗ ↔ ∀ c ∈ text, p c := by
  rw [Language.mem_kstar]
  constructor
  · rintro ⟨pieces, rfl, matched⟩ c member
    obtain ⟨piece, origin, inside⟩ := List.mem_flatten.1 member
    obtain ⟨d, accepted, rfl⟩ := matched piece origin
    exact List.mem_singleton.1 inside ▸ accepted
  · intro accepted
    refine ⟨text.map fun c => [c], (List.flatMap_singleton' text).symm, ?_⟩
    intro piece origin
    obtain ⟨c, member, rfl⟩ := List.mem_map.1 origin
    exact ⟨c, accepted c member, rfl⟩

/-- At least one character of a class. -/
theorem mem_one_mul_kstar_one : text ∈ one p * (one p)∗ ↔ text ≠ [] ∧ ∀ c ∈ text, p c := by
  simp only [mem_one_mul, mem_kstar_one]
  constructor
  · rintro ⟨c, rest, first, others, rfl⟩
    exact ⟨nofun, List.forall_mem_cons.2 ⟨first, others⟩⟩
  · rintro ⟨nonempty, accepted⟩
    obtain ⟨c, rest, rfl⟩ := List.exists_cons_of_ne_nil nonempty
    obtain ⟨first, others⟩ := List.forall_mem_cons.1 accepted
    exact ⟨c, rest, first, others, rfl⟩

theorem mem_kstar_fixed_mul {front : Text} :
    text ∈ (fixed front * language)∗ ↔
      ∃ parts : List Text, (∀ part ∈ parts, part ∈ language) ∧
        text = parts.flatMap (front ++ ·) := by
  rw [Language.mem_kstar]
  constructor
  · rintro ⟨pieces, rfl, matched⟩
    induction pieces with
    | nil => exact ⟨[], List.forall_mem_nil _, rfl⟩
    | cons piece pieces ih =>
      obtain ⟨first, others⟩ := List.forall_mem_cons.1 matched
      obtain ⟨part, accepted, rfl⟩ := mem_fixed_mul.1 first
      obtain ⟨parts, later, same⟩ := ih others
      exact ⟨part :: parts, List.forall_mem_cons.2 ⟨accepted, later⟩,
        congrArg (front ++ part ++ ·) same⟩
  · rintro ⟨parts, matched, rfl⟩
    refine ⟨parts.map (front ++ ·), rfl, ?_⟩
    intro piece origin
    obtain ⟨part, member, rfl⟩ := List.mem_map.1 origin
    exact mem_fixed_mul.2 ⟨part, matched part member, rfl⟩

/-- Texts of a language with a separator between each two of them. -/
theorem mem_mul_kstar_fixed_mul {separator : Text} :
    text ∈ language * (fixed separator * language)∗ ↔
      ∃ parts ≠ [], (∀ part ∈ parts, part ∈ language) ∧ text = separator.intercalate parts := by
  simp only [Language.mem_mul, mem_kstar_fixed_mul]
  constructor
  · rintro ⟨first, matched, _, ⟨parts, others, rfl⟩, rfl⟩
    exact ⟨first :: parts, nofun, List.forall_mem_cons.2 ⟨matched, others⟩,
      (Text.intercalate_cons ..).symm⟩
  · rintro ⟨parts, nonempty, matched, rfl⟩
    obtain ⟨first, parts, rfl⟩ := List.exists_cons_of_ne_nil nonempty
    obtain ⟨matched, others⟩ := List.forall_mem_cons.1 matched
    exact ⟨first, matched, _, ⟨parts, others, rfl⟩, (Text.intercalate_cons ..).symm⟩

end Pattern
end Bootscript
