import Bootscript.Proofs.Shell.Convergence
import Bootscript.Proofs.Shell.Expansion
import Bootscript.Proofs.Shell.Printf

/-! A program in whose quotes the shell puts a path when it has read the program. The parts of the
program have all their escapes and come out of `eval` and `printf` as they were, while the path
has none. It is printed as it is without backslashes, and is shorter for each that it has. -/
namespace Bootscript

namespace Text

def rewritten (write : Piece → Text) (t : Text) : Text := t.pieces.flatMap write

def around (path first : Text) (parts : List Text) : Text :=
  first ++ parts.flatMap fun part => '\'' :: path ++ '\'' :: part

section Around

variable {path first : Text} {parts : List Text}

@[simp] theorem around_nil (path first : Text) : around path first [] = first :=
  List.append_nil first

theorem around_cons (path first next : Text) (parts : List Text) :
    around path first (next :: parts) =
      first ++ '\'' :: (path ++ '\'' :: around path next parts) := by
  simp [around]

theorem length_around_cons (path first next : Text) (parts : List Text) :
    (around path first (next :: parts)).encode.length =
      first.encode.length + 1 + path.encode.length + 1 +
        (around path next parts).encode.length := by
  have quote : (String.utf8EncodeChar '\'').length = 1 := rfl
  simp only [around_cons, encode_append, encode_cons, List.length_append, quote]
  omega

theorem rewritten_append {write : Piece → Text} {front : Text} (whole : front.IsWhole)
    (rest : Text) :
    rewritten write (front ++ rest) = front.rewritten write ++ rest.rewritten write := by
  rw [rewritten, pieces_append whole, List.flatMap_append]
  rfl

theorem rewritten_append_of_not_mem {write : Piece → Text} {front : Text}
    (alone : ∀ c ∈ front, write (.plain c) = [c]) (clear : '\\' ∉ front) (rest : Text) :
    rewritten write (front ++ rest) = front ++ rest.rewritten write := by
  rw [rewritten_append (isWhole_of_not_mem clear), rewritten, pieces_of_not_mem clear,
    List.flatMap_map, List.flatMap_congr alone, List.flatMap_singleton']

theorem rewritten_around {write : Piece → Text} (alone : ∀ c ∈ '\'' :: path, write (.plain c) = [c])
    (clear : '\\' ∉ path) (whole : ∀ part ∈ first :: parts, part.IsWhole) :
    (around path first parts).rewritten write =
      around path (first.rewritten write) (parts.map (rewritten write)) := by
  rw [List.forall_mem_cons] at alone
  have single : ∀ c ∈ ['\''], write (.plain c) = [c] := by simpa using alone.1
  have quote (rest : Text) : rewritten write ('\'' :: rest) = '\'' :: rest.rewritten write :=
    rewritten_append_of_not_mem single (by decide) rest
  induction parts generalizing first with
  | nil => simp
  | cons next parts ih =>
    rw [List.forall_mem_cons] at whole
    rw [around_cons, rewritten_append whole.1, quote, rewritten_append_of_not_mem alone.2 clear,
      quote, ih whole.2, List.map_cons, around_cons]

end Around
end Text

namespace Shell

section Parts

variable {path first : Text} {parts : List Text}

/-- What the shell reads between quotes where the path comes in. -/
theorem expandBody?_around {env : Environment} (named : env "$0".toList = some path)
    (isSealed : ∀ part ∈ first :: parts, part.IsSealed) :
    expandBody? env (Text.around ['$', '0'] first parts) =
      some (Text.around path (unescape first) (parts.map unescape)) := by
  suffices expand? env (Text.around ['$', '0'] first parts ++ ['"']) =
      some (Text.around path (unescape first) (parts.map unescape), []) by
    rw [expandBody?, this]
  have quote (rest : Text) := expand?_plain env rest (c := '\'') (by decide) rfl
  induction parts generalizing first with
  | nil =>
    rw [Text.around_nil, expand?_of_isSealed env (isSealed first (List.mem_cons_self ..)),
      List.map_nil, Text.around_nil]
  | cons next parts ih =>
    rw [List.forall_mem_cons] at isSealed
    rw [Text.around_cons, List.append_assoc, List.cons_append, List.append_assoc,
      expand?_append_of_isSealed env isSealed.1, quote, List.cons_append, List.cons_append,
      expand?_script, named]
    simp only [List.nil_append, List.cons_append, quote, ih isSealed.2]
    simp [Text.around_cons]

/-- A part of the program is sealed when the shell has read it. -/
theorem isSealed_rewritten {t : Text} (layered : ∀ piece ∈ t.pieces, piece.IsLayered)
    (inert : ∀ c ∈ starters, c ∉ t) : (t.rewritten Piece.evaluated).IsSealed where
  toIsBody := isBody_evaluated layered
  escaped c starter member := by
    have other : c ≠ 'n' := by
      rintro rfl
      revert starter
      decide
    have whole (p : Piece) (inside : p ∈ t.pieces) : p.evaluated.IsWhole :=
      Piece.isWhole_evaluated (layered p inside)
    rw [Text.rewritten, Text.pieces_flatMap whole] at member
    obtain ⟨p, origin, inside⟩ := List.mem_flatMap.1 member
    rw [Piece.pieces_evaluated (layered p origin)] at inside
    have source (d : Char) (own : d ∈ p.text) (same : Piece.plain c = .plain d) : False :=
      inert c starter (Text.mem_of_mem_pieces origin (Piece.plain.inj same ▸ own))
    cases p with
    | plain d =>
      by_cases feed : d = '\n'
      · simp [feed, other] at inside
      · simp only [feed, ↓reduceIte, List.mem_singleton] at inside
        exact source d (List.mem_singleton_self d) inside
    | pair d =>
      simp only [List.mem_cons, reduceCtorEq, List.not_mem_nil, or_false, false_or] at inside
      exact source d (by simp [Piece.text]) inside

/-- A path without backslashes is printed with the program around it. -/
theorem percentB?_around (clear : '\\' ∉ path)
    (layered : ∀ part ∈ first :: parts, ∀ piece ∈ Text.pieces part, piece.IsLayered) :
    percentB? (Text.around path (first.rewritten Piece.printed)
      (parts.map (Text.rewritten Piece.printed))) = some (Text.around path first parts).encode := by
  have part {t : Text} (layered : ∀ piece ∈ t.pieces, piece.IsLayered) (rest : Text) :
      percentB? (t.rewritten Piece.printed ++ rest) = (percentB? rest).map (t.encode ++ ·) :=
    percentB?_append (Text.isWhole_flatMap fun p member => Piece.isWhole_printed (layered p member))
      (printf?_printed layered) rest
  have nothing : percentB? [] = some [] := by rw [percentB?.eq_def]
  induction parts generalizing first with
  | nil =>
    have whole := part (layered first (List.mem_cons_self ..)) []
    simpa [nothing] using whole
  | cons next parts ih =>
    rw [List.forall_mem_cons] at layered
    rw [List.map_cons, Text.around_cons, part layered.1, percentB?_plain _ (by decide),
      percentB?_append_of_not_mem clear, percentB?_plain _ (by decide), ih layered.2,
      Text.around_cons]
    simp

end Parts

section Weight

theorem weight_rewritten {t : Text} (layered : ∀ piece ∈ t.pieces, piece.IsLayered) :
    (t.rewritten Piece.printed).weight = t.encode.length := by
  have one : '\n'.utf8Size = 1 ∧ '\\'.utf8Size = 1 := by decide
  have single {p : Piece} (layered : p.IsLayered) : p.printed.weight = p.text.encode.length := by
    rw [Text.weight, Piece.pieces_printed layered]
    cases p with
    | plain c => by_cases feed : c = '\n' <;> simp [feed, one, Piece.weight, Piece.text]
    | pair c => simp [one, Piece.weight, Piece.text]
  suffices ∀ ps : List Piece, (∀ p ∈ ps, p.IsLayered) →
      Text.weight (ps.flatMap Piece.printed) = (Text.encode (ps.flatMap Piece.text)).length by
    rw [Text.rewritten, this _ layered, Text.text_pieces]
  intro ps layered
  induction ps with
  | nil => rfl
  | cons p ps ih =>
    rw [List.forall_mem_cons] at layered
    rw [List.flatMap_cons, Text.weight_append (Piece.isWhole_printed layered.1), single layered.1,
      ih layered.2, List.flatMap_cons, Text.encode_append, List.length_append]

variable {path first : Text} {parts : List Text}

theorem weight_around_cons {next : Text} (layered : ∀ piece ∈ first.pieces, piece.IsLayered) :
    (Text.around path (first.rewritten Piece.printed)
      ((next :: parts).map (Text.rewritten Piece.printed))).weight =
      first.encode.length + 1 + Text.weight (path ++ '\'' ::
        Text.around path (next.rewritten Piece.printed)
          (parts.map (Text.rewritten Piece.printed))) := by
  have whole : (first.rewritten Piece.printed).IsWhole :=
    Text.isWhole_flatMap fun p member => Piece.isWhole_printed (layered p member)
  have quote : (String.utf8EncodeChar '\'').length = 1 := rfl
  rw [List.map_cons, Text.around_cons, Text.weight_append whole, weight_rewritten layered,
    Text.weight_cons (by decide), quote, Nat.add_assoc]

theorem weight_around_le (path : Text)
    (layered : ∀ part ∈ first :: parts, ∀ piece ∈ Text.pieces part, piece.IsLayered) :
    (Text.around path (first.rewritten Piece.printed)
      (parts.map (Text.rewritten Piece.printed))).weight ≤
      (Text.around path first parts).encode.length := by
  have quote : (String.utf8EncodeChar '\'').length = 1 := rfl
  induction parts generalizing first with
  | nil => simp [weight_rewritten (layered first (List.mem_cons_self ..))]
  | cons next parts ih =>
    rw [List.forall_mem_cons] at layered
    have later := ih layered.2
    have joined := Text.weight_append_le (c := '\'') (by decide)
      (Text.around path (next.rewritten Piece.printed)
        (parts.map (Text.rewritten Piece.printed))) path
    rw [Text.weight_cons (by decide), quote] at joined
    rw [weight_around_cons layered.1, Text.length_around_cons]
    omega

/-- A backslash in the path makes what is printed shorter than the program with the path. -/
theorem length_lt_of_percentB?_around {data : Bytes} (escaped : '\\' ∈ path)
    (mentioned : parts ≠ [])
    (layered : ∀ part ∈ first :: parts, ∀ piece ∈ Text.pieces part, piece.IsLayered)
    (printed : percentB? (Text.around path (first.rewritten Piece.printed)
      (parts.map (Text.rewritten Piece.printed))) = some data) :
    data.length < (Text.around path first parts).encode.length := by
  have quote : (String.utf8EncodeChar '\'').length = 1 := rfl
  obtain ⟨next, parts, rfl⟩ := List.exists_cons_of_ne_nil mentioned
  rw [List.forall_mem_cons] at layered
  have whole := length_le_weight printed
  have later := weight_around_le path layered.2
  have joined := Text.weight_append_lt (c := '\'') (by decide)
    (Text.around path (next.rewritten Piece.printed)
      (parts.map (Text.rewritten Piece.printed))) escaped
  rw [Text.weight_cons (by decide), quote] at joined
  rw [weight_around_cons layered.1] at whole
  rw [Text.length_around_cons]
  omega

end Weight

end Shell
end Bootscript
