import Bootscript.Proofs.Shell.Word

/-! A text on its way through the shell, `eval` and `printf`. It is escaped and put on one
line for `printf`, and quoted for the shell; each reader takes one layer off. -/
namespace Bootscript

namespace Piece

/-- Pieces that each layer of escapes can be put on and taken off again. -/
def IsLayered : Piece → Prop
  | plain c => c ≠ '\\' ∧ c ≠ '"'
  | pair c => c ∉ shellSpecial ∧ c ≠ '\n'

instance : DecidablePred IsLayered
  | plain _ => inferInstanceAs (Decidable (_ ∧ _))
  | pair _ => inferInstanceAs (Decidable (_ ∧ _))

def value : Piece → Text
  | plain c => if c = '\n' then ['\\', 'n'] else [c]
  | pair c => ['\\', '\\', '\\', c]

def evaluated : Piece → Text
  | plain c => if c = '\n' then ['\\', '\\', 'n'] else [c]
  | pair c => ['\\', '\\', '\\', '\\', c]

def printed : Piece → Text
  | plain c => if c = '\n' then ['\\', 'n'] else [c]
  | pair c => ['\\', '\\', c]

section Layered

variable {p : Piece} (layered : p.IsLayered)
include layered

theorem ne_backslash_of_layered {c : Char} (p_eq : p = plain c ∨ p = pair c) : c ≠ '\\' := by
  rcases p_eq with rfl | rfl
  · exact layered.1
  · exact fun same => layered.1 (same ▸ by decide)

theorem pieces_value : p.value.pieces =
    match p with
    | plain c => if c = '\n' then [.pair 'n'] else [.plain c]
    | pair c => [.pair '\\', .pair c] := by
  cases p with
  | plain c =>
    have other := ne_backslash_of_layered layered (.inl rfl)
    by_cases feed : c = '\n' <;> simp [value, feed, Text.pieces_cons other]
  | pair c => rfl

theorem pieces_evaluated : p.evaluated.pieces =
    match p with
    | plain c => if c = '\n' then [.pair '\\', .plain 'n'] else [.plain c]
    | pair c => [.pair '\\', .pair '\\', .plain c] := by
  cases p with
  | plain c =>
    have other := ne_backslash_of_layered layered (.inl rfl)
    by_cases feed : c = '\n' <;>
      simp [evaluated, feed, Text.pieces_cons other, Text.pieces_cons (show 'n' ≠ '\\' by decide)]
  | pair c =>
    have other := ne_backslash_of_layered layered (.inr rfl)
    simp [evaluated, Text.pieces_cons other]

theorem pieces_printed : p.printed.pieces =
    match p with
    | plain c => if c = '\n' then [.pair 'n'] else [.plain c]
    | pair c => [.pair '\\', .plain c] := by
  cases p with
  | plain c =>
    have other := ne_backslash_of_layered layered (.inl rfl)
    by_cases feed : c = '\n' <;> simp [printed, feed, Text.pieces_cons other]
  | pair c =>
    have other := ne_backslash_of_layered layered (.inr rfl)
    simp [printed, Text.pieces_cons other]

theorem isWhole_value : p.value.IsWhole := by
  rw [Text.IsWhole, pieces_value layered]
  cases p with
  | plain c => by_cases feed : c = '\n' <;> simp [feed, Ne.symm layered.1]
  | pair c => simp

theorem isWhole_evaluated : p.evaluated.IsWhole := by
  rw [Text.IsWhole, pieces_evaluated layered]
  cases p with
  | plain c => by_cases feed : c = '\n' <;> simp [feed, Ne.symm layered.1]
  | pair c => simp [Ne.symm (ne_backslash_of_layered layered (.inr rfl))]

theorem isWhole_printed : p.printed.IsWhole := by
  rw [Text.IsWhole, pieces_printed layered]
  cases p with
  | plain c => by_cases feed : c = '\n' <;> simp [feed, Ne.symm layered.1]
  | pair c => simp [Ne.symm (ne_backslash_of_layered layered (.inr rfl))]

/-- The shell's layer. -/
theorem once_value : p.value.pieces.flatMap once = p.evaluated := by
  rw [pieces_value layered]
  cases p with
  | plain c => by_cases feed : c = '\n' <;> simp [feed, once, evaluated, shellSpecial]
  | pair c => simp [once, evaluated, layered.1, layered.2, show '\\' ∈ shellSpecial by decide]

/-- The layer of `eval`. -/
theorem unescape_evaluated : Shell.unescape p.evaluated = p.printed := by
  rw [Shell.unescape, pieces_evaluated layered]
  cases p with
  | plain c => by_cases feed : c = '\n' <;> simp [feed, unescaped, printed, shellSpecial]
  | pair c => simp [unescaped, printed, show '\\' ∈ shellSpecial by decide]

/-- The layer of `printf`. -/
theorem readAll_printed : readAll printed? p.printed.pieces = some p.text := by
  rw [pieces_printed layered]
  cases p with
  | plain c => by_cases feed : c = '\n' <;> simp [feed, readAll, printed?, text]
  | pair c => simp [readAll, printed?, text]

theorem noQuote_evaluated : plain '"' ∉ p.evaluated.pieces := by
  rw [pieces_evaluated layered]
  cases p with
  | plain c => by_cases feed : c = '\n' <;> simp [feed, Ne.symm layered.2]
  | pair c =>
    have other : c ≠ '"' := fun same => layered.1 (same ▸ by decide)
    simp [Ne.symm other]

end Layered

end Piece

namespace Shell

def onOneLine (text : Text) : Text := text.flatMap fun c => if c = '\n' then ['\\', 'n'] else [c]

section Layers

variable {t : Text} (layered : ∀ piece ∈ t.pieces, piece.IsLayered)
include layered

theorem onOneLine_escapeBackslashes :
    onOneLine (escapeBackslashes t) = t.pieces.flatMap Piece.value := by
  rw [onOneLine, escapeBackslashes_eq, List.flatMap_assoc]
  apply List.flatMap_congr
  intro piece member
  have inside := layered piece member
  cases piece with
  | plain c =>
    have other := Piece.ne_backslash_of_layered inside (.inl rfl)
    by_cases feed : c = '\n' <;> simp [Piece.tripled, Piece.value, other, feed]
  | pair c => simp [Piece.tripled, Piece.value, escapePair, inside.2]

theorem unescape_escapeWord_value :
    unescape (escapeWord (t.pieces.flatMap Piece.value)) = t.pieces.flatMap Piece.evaluated := by
  rw [unescape_escapeWord, Text.pieces_flatMap fun p member => Piece.isWhole_value (layered p member),
    List.flatMap_assoc]
  exact List.flatMap_congr fun p member => Piece.once_value (layered p member)

theorem unescape_evaluated :
    unescape (t.pieces.flatMap Piece.evaluated) = t.pieces.flatMap Piece.printed := by
  rw [unescape_flatMap fun p member => Piece.isWhole_evaluated (layered p member)]
  exact List.flatMap_congr fun p member => Piece.unescape_evaluated (layered p member)

theorem printf?_printed : printf? (t.pieces.flatMap Piece.printed) = some t := by
  have whole := fun p member => Piece.isWhole_printed (layered p member)
  rw [printf?, Text.pieces_flatMap whole]
  suffices ∀ ps : List Piece, (∀ p ∈ ps, p.IsLayered) →
      Piece.readAll Piece.printed? (ps.flatMap fun p => p.printed.pieces) =
        some (ps.flatMap Piece.text) by
    rw [this _ layered, Text.text_pieces]
  intro ps layered
  induction ps with
  | nil => rfl
  | cons p ps ih =>
    rw [List.forall_mem_cons] at layered
    rw [List.flatMap_cons, Piece.readAll_append, Piece.readAll_printed layered.1, ih layered.2]
    rfl

/-- What the shell, `eval` and `printf` read one after the other is the text itself, and on
the way to `eval` it is free of quotes. -/
theorem printf?_unescape_unescape :
    let x := unescape (escapeWord (onOneLine (escapeBackslashes t)))
    .plain '"' ∉ x.pieces ∧ printf? (unescape x) = some t := by
  intro x
  have read : x = t.pieces.flatMap Piece.evaluated := by
    rw [← unescape_escapeWord_value layered, ← onOneLine_escapeBackslashes layered]
  rw [read]
  constructor
  · rw [Text.pieces_flatMap fun p member => Piece.isWhole_evaluated (layered p member)]
    intro member
    obtain ⟨p, inside, quote⟩ := List.mem_flatMap.1 member
    exact Piece.noQuote_evaluated (layered p inside) quote
  · rw [unescape_evaluated layered, printf?_printed layered]

end Layers
end Shell
end Bootscript
