import Bootscript.Proofs.Piece
import Bootscript.Proofs.Utf8
import Bootscript.Python.Quoted

/-! Literals in single quotes. A text is the string that its literal stands for if no character
of it is special, and without backslashes only then. With backslashes a literal may stand for
anything, but for nothing that takes more bytes than its escapes do. -/
namespace Bootscript

namespace Text

theorem length_encode_take_drop (t : Text) (count : Nat) :
    (encode (t.take count)).length + (encode (t.drop count)).length = t.encode.length := by
  rw [← List.length_append, ← encode_append, List.take_append_drop]

theorem ofDigitChars_octal_lt (t : Text) : Nat.ofDigitChars 8 t.octal 0 < 512 := by
  have digit (d : Char) (member : d ∈ t.octal) : d.toNat - '0'.toNat < 8 := by
    have most : d.toNat ≤ '7'.toNat := (of_mem_octal member).2
    have : '7'.toNat = 55 ∧ '0'.toNat = 48 := by decide
    omega
  have three : t.octal.length ≤ 3 := List.length_take_le _ _
  generalize t.octal = digits at digit three
  rcases digits with _ | ⟨a, _ | ⟨b, _ | ⟨c, _ | ⟨d, rest⟩⟩⟩⟩
  · decide
  all_goals
    simp only [List.length_cons, List.length_nil, List.forall_mem_cons] at three digit
    simp only [Nat.ofDigitChars, List.foldl_cons, List.foldl_nil]
    omega

/-- The character of an octal escape has two bytes at most. -/
theorem length_encode_octal (t : Text) :
    (encode [Char.ofNat (Nat.ofDigitChars 8 t.octal 0)]).length ≤ 2 := by
  have bound := ofDigitChars_octal_lt t
  generalize Nat.ofDigitChars 8 t.octal 0 = n at bound
  have small : (Char.ofNat n).toNat = n := Utf8.toNat_ofNat (by omega)
  have one : encode [Char.ofNat n] = String.utf8EncodeChar (Char.ofNat n) := List.append_nil _
  rw [one, String.length_utf8EncodeChar, Char.utf8Size]
  have fits : (Char.ofNat n).val ≤ 2047 := by
    rw [UInt32.le_iff_toNat_le]
    change (Char.ofNat n).toNat ≤ 2047
    omega
  split_ifs with short long
  · decide
  · exact Nat.le_refl 2
  all_goals exact absurd fits long

end Text

namespace Python

variable {names : Text → Option Char}

section Clear

theorem quoted?_append {front : Text} (clear : ∀ c ∈ front, c ∉ special) (rest : Text) :
    quoted? names (front ++ '\'' :: rest) = some (front, rest) := by
  induction front with
  | nil =>
    rw [quoted?.eq_def]
    rfl
  | cons c front ih =>
    rw [List.forall_mem_cons] at clear
    have plain : c ≠ '\'' ∧ c ≠ '\\' := by
      constructor <;> (rintro rfl; exact clear.1 (by decide))
    rw [List.cons_append, quoted?.eq_def]
    simp [plain, clear.1, ih clear.2]

theorem clear_of_quoted? {front rest after : Text} (noBackslash : '\\' ∉ front)
    (read : quoted? names (front ++ rest) = some (front, after)) : ∀ c ∈ front, c ∉ special := by
  induction front with
  | nil => nofun
  | cons c front ih =>
    rw [List.mem_cons, not_or] at noBackslash
    rw [List.cons_append, quoted?.eq_def] at read
    by_cases ends : c = '\''
    · simp [ends] at read
    by_cases isSpecial : c ∈ special
    · simp [ends, Ne.symm noBackslash.1, isSpecial] at read
    simp only [ends, Ne.symm noBackslash.1, isSpecial, ↓reduceIte] at read
    obtain ⟨⟨value, behind⟩, later, same⟩ := Option.map_eq_some_iff.1 read
    cases same
    exact List.forall_mem_cons.2 ⟨isSpecial, ih noBackslash.2 later⟩

end Clear

section Length

theorem length_encode_le_four (c : Char) : (Text.encode [c]).length ≤ 4 := by
  have one : Text.encode [c] = String.utf8EncodeChar c := List.append_nil _
  rw [one, String.length_utf8EncodeChar]
  exact c.utf8Size_le_four

/-- A pair that is no escape stands for both its characters, and all others for one or none. -/
theorem length_literal? {c : Char} {value : Text} (read : (Piece.pair c).literal? = some value) :
    value.encode.length ≤ (Text.encode [c]).length + 1 := by
  have backslash : (Text.encode ['\\', c]).length = (Text.encode [c]).length + 1 := by
    rw [Text.encode_cons, List.length_append, Nat.add_comm]
    rfl
  rw [Piece.literal?] at read
  repeat' split at read
  all_goals cases read
  · exact Nat.le_succ _
  all_goals first | exact backslash.le | exact Nat.le_add_left _ _

theorem lt_of_braced? {text name : Text} (read : braced? text = some name) :
    name.length + 1 < text.length := by
  unfold braced? at read
  split at read
  · rename_i rest
    split_ifs at read with closed
    cases read
    have parted := congrArg List.length
      (List.takeWhile_append_dropWhile (p := (· ≠ '\x7d')) (l := rest))
    have behind : rest.dropWhile (· ≠ '\x7d') ≠ [] := fun nothing => by
      simpa using List.dropWhile_eq_nil_iff.1 nothing _ closed
    have := List.length_pos_iff.2 behind
    rw [List.length_append] at parted
    rw [List.length_cons]
    omega
  · cases read

theorem length_escape? {text value : Text} {extent : Nat}
    (read : escape? names text = some (value, extent)) :
    value.encode.length ≤ (Text.encode (text.take extent)).length + 1 := by
  have taken := Text.length_le_encode (text.take extent)
  rw [List.length_take] at taken
  unfold escape? at read
  split at read
  · cases read
  rename_i c rest
  rw [List.length_cons] at taken
  split_ifs at read with null ret pair octal name
  · cases read
    simp
  · cases read
    simp
  · cases read
    have some := List.length_pos_iff.2 octal
    have front := (Text.octal_prefix (c :: rest)).length_le
    have := Text.length_encode_octal (c :: rest)
    rw [List.length_cons] at front
    omega
  · simp only [Option.bind_eq_bind, Option.bind_eq_some_iff, Option.pure_def,
      Option.some.injEq, Prod.mk.injEq] at read
    obtain ⟨name, braced, char, _, rfl, rfl⟩ := read
    have := lt_of_braced? braced
    have := length_encode_le_four char
    omega
  · split at read
    · rename_i width width_eq
      have two : 2 ≤ width := by
        unfold hexWidth? at width_eq
        split at width_eq <;> cases width_eq <;> decide
      split_ifs at read
      obtain ⟨char, _, same⟩ := Option.map_eq_some_iff.1 read
      cases same
      have := length_encode_le_four char
      omega
    · obtain ⟨value, literal, same⟩ := Option.map_eq_some_iff.1 read
      cases same
      exact length_literal? literal

theorem length_quoted? {text value after : Text}
    (read : quoted? names text = some (value, after)) :
    value.encode.length + after.encode.length + 1 ≤ text.encode.length := by
  fun_induction quoted? names text generalizing value after with
  | case1 => cases read
  | case2 rest =>
    cases read
    have := Text.length_encodeChar_pos '\''
    rw [Text.encode_cons, List.length_append, Text.encode_nil, List.length_nil]
    omega
  | case3 rest _ ih =>
    simp only [Option.bind_eq_bind, Option.bind_eq_some_iff, Option.pure_def,
      Option.some.injEq, Prod.mk.injEq, Prod.exists] at read
    obtain ⟨first, extent, escaped, further, after, later, rfl, rfl⟩ := read
    have shorter := ih _ later
    have escape := length_escape? escaped
    have parted := Text.length_encode_take_drop rest extent
    have one : (String.utf8EncodeChar '\\').length = 1 := rfl
    rw [Text.encode_cons, Text.encode_append, List.length_append, List.length_append, one]
    omega
  | case4 => cases read
  | case5 c rest _ _ _ ih =>
    obtain ⟨⟨further, behind⟩, later, same⟩ := Option.map_eq_some_iff.1 read
    cases same
    have shorter := ih later
    rw [Text.encode_cons, Text.encode_cons, List.length_append, List.length_append]
    omega

end Length

section Literal

theorem quoted?_of_string? {text value after : Text}
    (read : string? names ('\'' :: text) = some (value, after)) :
    quoted? names text = some (value, after) := by
  unfold string? at read
  split at read
  · cases read
  · rename_i same
    cases same
    exact read
  · cases read

theorem string?_append {front : Text} (clear : ∀ c ∈ front, c ∉ special) (nonempty : front ≠ [])
    (rest : Text) : string? names ('\'' :: (front ++ '\'' :: rest)) = some (front, rest) := by
  obtain ⟨c, front, rfl⟩ := List.exists_cons_of_ne_nil nonempty
  have other : c ≠ '\'' := fun same => clear c (List.mem_cons_self ..) (same ▸ by decide)
  rw [List.cons_append, string?]
  · exact quoted?_append clear rest
  · intro behind same
    exact other (List.cons.inj same).1

theorem length_string? {text value after : Text}
    (read : string? names text = some (value, after)) :
    value.encode.length + after.encode.length + 2 ≤ text.encode.length := by
  have one : (String.utf8EncodeChar '\'').length = 1 := rfl
  unfold string? at read
  split at read
  · cases read
  · have shorter := length_quoted? read
    rw [Text.encode_cons, List.length_append, one]
    omega
  · cases read

end Literal

end Python
end Bootscript
