import Bootscript.Proofs.Piece
import Bootscript.Proofs.Utf8
import Bootscript.Shell.Printf
import Bootscript.Shell.Reader

/-! What `printf` makes of a text. It reads on behind a beginning whose only escapes are those
of backslashes and line feeds as if there were none before. An escape never prints as many
bytes as it takes, so a text with one becomes shorter, however its escapes are told apart. -/
namespace Bootscript

def Piece.weight : Piece → Nat
  | plain c => (String.utf8EncodeChar c).length
  | pair _ => 1

def Text.weight (t : Text) : Nat := t.pieces.foldr (fun piece total => piece.weight + total) 0

namespace Shell

section Step

variable (rest : Text)

theorem percentB?_plain {c : Char} (other : c ≠ '\\') :
    percentB? (c :: rest) = (percentB? rest).map (String.utf8EncodeChar c ++ ·) := by
  rw [percentB?.eq_def]
  simp [other]

theorem percentB?_escaped {c : Char} {byte : UInt8} (letter : escapedByte? c = some byte) :
    percentB? ('\\' :: c :: rest) = (percentB? rest).map (byte :: ·) := by
  have ends : c ≠ 'c' := by
    rintro rfl
    cases letter
  have octal : c ≠ '0' := by
    rintro rfl
    cases letter
  rw [percentB?.eq_def]
  simp only [ends, octal, letter, ↓reduceIte, Option.bind_eq_bind, Option.bind_some,
    Option.map_eq_bind]
  rfl

theorem percentB?_pair {c : Char} {text : Text} (read : (Piece.pair c).printed? = some text) :
    percentB? ('\\' :: c :: rest) = (percentB? rest).map (text.encode ++ ·) := by
  rw [Piece.printed?] at read
  split_ifs at read with backslash feed
  · subst backslash
    cases read
    exact percentB?_escaped rest rfl
  · subst feed
    cases read
    exact percentB?_escaped rest rfl

end Step

theorem percentB?_append {front text : Text} (whole : front.IsWhole)
    (read : printf? front = some text) (rest : Text) :
    percentB? (front ++ rest) = (percentB? rest).map (text.encode ++ ·) := by
  unfold Text.IsWhole at whole
  unfold printf? at read
  fun_induction Text.pieces front generalizing text with
  | case1 =>
    cases read
    simp
  | case2 => exact absurd (List.mem_singleton_self _) whole
  | case3 escaped front ih =>
    rw [List.mem_cons, not_or] at whole
    simp only [Piece.readAll, Option.bind_eq_bind, Option.bind_eq_some_iff, Option.pure_def,
      Option.some.injEq] at read
    obtain ⟨first, pair, later, read, rfl⟩ := read
    rw [List.cons_append, List.cons_append, percentB?_pair _ pair, ih whole.2 read, Option.map_map]
    simp [Function.comp_def]
  | case4 c front other ih =>
    rw [List.mem_cons, not_or] at whole
    simp only [Piece.readAll, Piece.printed?, Option.bind_eq_bind, Option.bind_eq_some_iff,
      Option.pure_def, Option.some.injEq] at read
    obtain ⟨_, rfl, later, read, rfl⟩ := read
    rw [List.cons_append, percentB?_plain _ other, ih whole.2 read, Option.map_map]
    simp [Function.comp_def]

/-- A text without backslashes is printed as it is. -/
theorem percentB?_append_of_not_mem {front : Text} (clear : '\\' ∉ front) (rest : Text) :
    percentB? (front ++ rest) = (percentB? rest).map (front.encode ++ ·) := by
  apply percentB?_append (Text.isWhole_of_not_mem clear)
  rw [printf?, Text.pieces_of_not_mem clear]
  induction front with
  | nil => rfl
  | cons c front ih =>
    rw [List.mem_cons, not_or] at clear
    rw [List.map_cons, Piece.readAll, ih clear.2]
    rfl

end Shell

namespace Text

theorem weight_cons {c : Char} (other : c ≠ '\\') (rest : Text) :
    weight (c :: rest) = (String.utf8EncodeChar c).length + weight rest := by
  rw [weight, pieces_cons other]
  rfl

theorem weight_pair (c : Char) (rest : Text) : weight ('\\' :: c :: rest) = weight rest + 1 := by
  rw [weight, pieces_pair, Nat.add_comm]
  rfl

theorem weight_append {front : Text} (whole : front.IsWhole) (rest : Text) :
    (front ++ rest).weight = front.weight + rest.weight := by
  unfold IsWhole at whole
  fun_induction pieces front with
  | case1 => exact (Nat.zero_add _).symm
  | case2 => exact absurd (List.mem_singleton_self _) whole
  | case3 escaped front ih =>
    rw [List.mem_cons, not_or] at whole
    rw [List.cons_append, List.cons_append, weight_pair, weight_pair, ih whole.2,
      Nat.add_right_comm]
  | case4 c front other ih =>
    rw [List.mem_cons, not_or] at whole
    rw [List.cons_append, weight_cons other, weight_cons other, ih whole.2, Nat.add_assoc]

section Behind

variable {t : Text} {c : Char} (other : c ≠ '\\') (rest : Text)
include other

theorem weight_append_le (t : Text) :
    weight (t ++ c :: rest) ≤ t.encode.length + weight (c :: rest) := by
  fun_induction pieces t with
  | case1 => simp
  | case2 =>
    have := length_encodeChar_pos c
    rw [List.singleton_append, weight_pair, weight_cons other, encode_cons, List.length_append]
    omega
  | case3 escaped t ih =>
    have := length_encodeChar_pos escaped
    rw [List.cons_append, List.cons_append, weight_pair, encode_cons, encode_cons,
      List.length_append, List.length_append]
    omega
  | case4 d t free ih =>
    rw [List.cons_append, weight_cons free, encode_cons, List.length_append]
    omega

/-- Each backslash costs the character that it takes with it, and be it the one behind the text. -/
theorem weight_append_lt (escaped : '\\' ∈ t) :
    weight (t ++ c :: rest) < t.encode.length + weight (c :: rest) := by
  fun_induction pieces t with
  | case1 => cases escaped
  | case2 =>
    have one : (encode ['\\']).length = 1 := rfl
    have := length_encodeChar_pos c
    rw [List.singleton_append, weight_pair, weight_cons other, one]
    omega
  | case3 d t ih =>
    have one : (String.utf8EncodeChar '\\').length = 1 := rfl
    have := length_encodeChar_pos d
    have := weight_append_le other rest t
    rw [List.cons_append, List.cons_append, weight_pair, encode_cons, encode_cons,
      List.length_append, List.length_append, one]
    omega
  | case4 d t free ih =>
    have := ih ((List.mem_cons.1 escaped).resolve_left (Ne.symm free))
    rw [List.cons_append, weight_cons free, encode_cons, List.length_append]
    omega

end Behind

end Text

namespace Shell

theorem weight_drop_octal (t : Text) : Text.weight (t.drop t.octal.length) ≤ t.weight := by
  have digits : '\\' ∉ t.octal := fun inside => absurd (Text.of_mem_octal inside) (by decide)
  have parted := congrArg Text.weight (List.prefix_iff_eq_append.1 t.octal_prefix)
  rw [Text.weight_append (Text.isWhole_of_not_mem digits)] at parted
  omega

theorem length_le_weight {t : Text} {data : Bytes} (printed : percentB? t = some data) :
    data.length ≤ t.weight := by
  fun_induction percentB? t generalizing data with
  | case1 => cases printed; simp
  | case2 => cases printed
  | case3 => cases printed; simp
  | case4 rest =>
    rename_i ih
    obtain ⟨later, read, rfl⟩ := Option.map_eq_some_iff.1 printed
    have shorter := ih read
    have dropped := weight_drop_octal rest
    rw [Text.weight_pair, List.length_cons]
    omega
  | case5 => cases printed
  | case6 escaped rest _ _ ih =>
    simp only [Option.bind_eq_bind, Option.bind_eq_some_iff, Option.pure_def,
      Option.some.injEq] at printed
    obtain ⟨byte, _, later, read, rfl⟩ := printed
    have shorter := ih read
    rw [Text.weight_pair, List.length_cons]
    omega
  | case7 c rest other ih =>
    obtain ⟨later, read, rfl⟩ := Option.map_eq_some_iff.1 printed
    have shorter := ih read
    rw [Text.weight_cons other, List.length_append]
    omega

end Shell
end Bootscript
