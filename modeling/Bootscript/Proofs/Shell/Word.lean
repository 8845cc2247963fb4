import Bootscript.Proofs.Piece
import Bootscript.Shell.Reader
import Bootscript.Shell.Word

/-! Quoted words are bodies between quotes. A word without backslashes is what the shell
reads from its quotation; a text with backslashes, escaped beforehand, is what is left after
a second reading by `eval` and a third by `printf`. -/
namespace Bootscript

namespace Piece

/-- A piece in the quotation of a word. -/
def quoted : Piece → Text
  | plain c => if c = '\\' then ['\\', '\\'] else if c = '"' ∨ c = '$' then ['\\', c] else [c]
  | pair c => Shell.escapePair c

def tripled : Piece → Text
  | plain c => if c = '\\' then ['\\', '\\'] else [c]
  | pair c => Shell.escapePair c

def once : Piece → Text
  | plain c => [c]
  | pair c => if c ∈ shellSpecial then ['\\', c] else if c = '\n' then [] else ['\\', '\\', c]

def escapedAlone : List Char := ['\\', '"', '$']

theorem mem_shellSpecial_of_mem {c : Char} (escaped : c ∈ escapedAlone) : c ∈ shellSpecial := by
  have all : ∀ c ∈ escapedAlone, c ∈ shellSpecial := by simp [escapedAlone, shellSpecial]
  exact all c escaped

theorem pieces_escapePair (c : Char) :
    (Shell.escapePair c).pieces = if c = '\n' then [.pair c] else [.pair '\\', .pair c] := by
  by_cases feed : c = '\n' <;> simp [Shell.escapePair, feed]

theorem mem_text_of_mem_escapePair {c d : Char} (member : c ∈ Shell.escapePair d) :
    c = '\\' ∨ c ∈ (pair d).text := by
  unfold Shell.escapePair at member
  split at member <;> simp_all [text]

theorem mem_text_of_mem_quoted {p : Piece} {c : Char} (member : c ∈ p.quoted) :
    c = '\\' ∨ c ∈ p.text := by
  cases p with
  | plain d =>
    rw [quoted] at member
    split at member
    · simp_all
    split at member <;> simp_all [text]
  | pair d => exact mem_text_of_mem_escapePair member

theorem mem_text_of_mem_tripled {p : Piece} {c : Char} (member : c ∈ p.tripled) :
    c = '\\' ∨ c ∈ p.text := by
  cases p with
  | plain d =>
    rw [tripled] at member
    split at member <;> simp_all [text]
  | pair d => exact mem_text_of_mem_escapePair member

theorem pieces_quoted_plain (c : Char) :
    (plain c).quoted.pieces = if c ∈ escapedAlone then [.pair c] else [.plain c] := by
  by_cases back : c = '\\'
  · subst back; rfl
  by_cases special : c = '"' ∨ c = '$'
  · simp [quoted, escapedAlone, back, special]
  · simp only [quoted, escapedAlone, back, special, ↓reduceIte, List.mem_cons, List.not_mem_nil,
      or_false, Text.pieces_cons back, Text.pieces_nil]

theorem isWhole_quoted (p : Piece) : p.quoted.IsWhole := by
  rw [Text.IsWhole]
  cases p with
  | plain c =>
    rw [pieces_quoted_plain]
    split
    · simp
    · rename_i alone
      rintro member
      obtain rfl := Piece.plain.inj (List.mem_singleton.1 member)
      exact alone (by decide)
  | pair c => rw [quoted, pieces_escapePair]; split <;> simp

theorem unescape_quoted (p : Piece) : Shell.unescape p.quoted = p.once := by
  cases p with
  | plain c =>
    rw [Shell.unescape, pieces_quoted_plain, once]
    split
    · rename_i escaped
      rw [List.flatMap_singleton, unescaped, if_pos (mem_shellSpecial_of_mem escaped)]
    · rfl
  | pair c =>
    have backslash : unescaped (pair '\\') = ['\\'] := rfl
    rw [Shell.unescape, quoted, pieces_escapePair]
    by_cases feed : c = '\n'
    · subst feed; rfl
    rw [if_neg feed, List.flatMap_cons, List.flatMap_singleton, backslash, unescaped, once]
    split
    · rfl
    · rfl

end Piece

namespace Shell

theorem escapeWord_eq (word : Text) : escapeWord word = word.pieces.flatMap Piece.quoted := by
  fun_induction escapeWord word with
  | case1 => rfl
  | case2 => rfl
  | case3 escaped rest ih => rw [Text.pieces_pair, List.flatMap_cons, ← ih]; rfl
  | case4 c rest other special ih =>
    rw [Text.pieces_cons other, List.flatMap_cons, ← ih, Piece.quoted, if_neg other, if_pos special]
    rfl
  | case5 c rest other plain ih =>
    rw [Text.pieces_cons other, List.flatMap_cons, ← ih, Piece.quoted, if_neg other, if_neg plain]
    rfl

theorem escapeBackslashes_eq (text : Text) :
    escapeBackslashes text = text.pieces.flatMap Piece.tripled := by
  fun_induction escapeBackslashes text with
  | case1 => rfl
  | case2 => rfl
  | case3 escaped rest ih => rw [Text.pieces_pair, List.flatMap_cons, ← ih]; rfl
  | case4 c rest other ih =>
    rw [Text.pieces_cons other, List.flatMap_cons, ← ih, Piece.tripled, if_neg other]
    rfl

theorem pieces_escapeWord (word : Text) :
    (escapeWord word).pieces = word.pieces.flatMap fun piece => piece.quoted.pieces := by
  rw [escapeWord_eq, Text.pieces_flatMap fun piece _ => piece.isWhole_quoted]

/-- Quoting adds nothing but backslashes. -/
theorem mem_of_mem_escapeWord {word : Text} {c : Char} (member : c ∈ escapeWord word) :
    c = '\\' ∨ c ∈ word := by
  rw [escapeWord_eq] at member
  obtain ⟨piece, origin, inside⟩ := List.mem_flatMap.1 member
  exact (Piece.mem_text_of_mem_quoted inside).imp_right (Text.mem_of_mem_pieces origin)

theorem mem_of_mem_escapeBackslashes {text : Text} {c : Char}
    (member : c ∈ escapeBackslashes text) : c = '\\' ∨ c ∈ text := by
  rw [escapeBackslashes_eq] at member
  obtain ⟨piece, origin, inside⟩ := List.mem_flatMap.1 member
  exact (Piece.mem_text_of_mem_tripled inside).imp_right (Text.mem_of_mem_pieces origin)

theorem mem_of_mem_quoteWord {word : Text} {c : Char} (member : c ∈ quoteWord word) :
    c ∈ ['"', '\\'] ∨ c ∈ word := by
  simp only [quoteWord, List.cons_append, List.mem_cons, List.mem_append, List.not_mem_nil,
    or_false] at member ⊢
  rcases member with quote | inside | quote
  · exact .inl (.inl quote)
  · exact (mem_of_mem_escapeWord inside).imp_left .inr
  · exact .inl (.inl quote)

/-- In a quotation stand no other characters alone, and no other pairs, than in the word,
apart from those that quoting makes. -/
theorem mem_pieces_escapeWord {word : Text} {piece : Piece}
    (member : piece ∈ (escapeWord word).pieces) :
    (∃ c ∉ Piece.escapedAlone, piece = .plain c ∧ .plain c ∈ word.pieces) ∨
      ∃ c, piece = .pair c ∧ (c ∈ Piece.escapedAlone ∨ .pair c ∈ word.pieces) := by
  rw [pieces_escapeWord] at member
  obtain ⟨old, origin, inside⟩ := List.mem_flatMap.1 member
  cases old with
  | plain c =>
    rw [Piece.pieces_quoted_plain] at inside
    split at inside
    · rename_i escaped
      exact .inr ⟨c, List.mem_singleton.1 inside, .inl escaped⟩
    · rename_i alone
      exact .inl ⟨c, alone, List.mem_singleton.1 inside, origin⟩
  | pair c =>
    rw [Piece.quoted, Piece.pieces_escapePair] at inside
    split at inside
    · exact .inr ⟨c, List.mem_singleton.1 inside, .inr origin⟩
    · simp only [List.mem_cons, List.not_mem_nil, or_false] at inside
      rcases inside with rfl | rfl
      · exact .inr ⟨'\\', rfl, .inl (by decide)⟩
      · exact .inr ⟨c, rfl, .inr origin⟩

theorem plain_mem_pieces_escapeWord_iff {word : Text} {c : Char} (alone : c ∉ Piece.escapedAlone) :
    .plain c ∈ (escapeWord word).pieces ↔ .plain c ∈ word.pieces := by
  constructor
  · intro member
    rcases mem_pieces_escapeWord member with ⟨_, _, same, origin⟩ | ⟨_, absurd, _⟩
    · cases same
      exact origin
    · cases absurd
  · intro origin
    rw [pieces_escapeWord]
    refine List.mem_flatMap.2 ⟨_, origin, ?_⟩
    rw [Piece.pieces_quoted_plain, if_neg alone]
    exact List.mem_singleton_self _

theorem isBody_escapeWord (word : Text) : (escapeWord word).IsBody := by
  have clear {c : Char} (escaped : c ∈ Piece.escapedAlone) :
      .plain c ∉ (escapeWord word).pieces := by
    intro member
    rcases mem_pieces_escapeWord member with ⟨d, alone, same, _⟩ | ⟨d, absurd, _⟩
    · exact alone (Piece.plain.inj same ▸ escaped)
    · cases absurd
  exact ⟨clear (by decide), clear (by decide)⟩

theorem unescape_flatMap {ps : List Piece} {write : Piece → Text}
    (whole : ∀ piece ∈ ps, (write piece).IsWhole) :
    unescape (ps.flatMap write) = ps.flatMap fun piece => unescape (write piece) := by
  rw [unescape, Text.pieces_flatMap whole, List.flatMap_assoc]
  rfl

/-- One reading of a quoted word. -/
theorem unescape_escapeWord (word : Text) :
    unescape (escapeWord word) = word.pieces.flatMap Piece.once := by
  rw [escapeWord_eq, unescape_flatMap fun piece _ => piece.isWhole_quoted]
  exact congrArg word.pieces.flatMap (funext Piece.unescape_quoted)

theorem unescape_escapeWord_append {first : Text} (whole : first.IsWhole) (second : Text) :
    unescape (escapeWord (first ++ second)) =
      unescape (escapeWord first) ++ unescape (escapeWord second) := by
  rw [unescape_escapeWord, Text.pieces_append whole, List.flatMap_append, ← unescape_escapeWord,
    ← unescape_escapeWord]

theorem unescape_escapeWord_of_not_mem {word : Text} (clear : '\\' ∉ word) :
    unescape (escapeWord word) = word := by
  rw [unescape_escapeWord, Text.pieces_of_not_mem clear, List.flatMap_map]
  exact List.flatMap_singleton' word

end Shell
end Bootscript
