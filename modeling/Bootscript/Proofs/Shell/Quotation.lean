import Bootscript.Proofs.Shell.Expansion

/-! Quotations of arbitrary words. A quotation is closed and nothing in it stands free, so
that it can be told where it ends; the word can be made out again from it. The shell, which
reads a quotation once, gives the word back just if all its escapes are escapes to the shell. -/
namespace Bootscript.Shell

/-- The word of which the inside of a quotation is made. An escaped backslash is `pending` until
what follows tells whether it is the first half of a pair or the last character. -/
def restored (pending : Bool) : List Piece → Text
  | [] => if pending then ['\\'] else []
  | .plain c :: rest => c :: restored false rest
  | .pair c :: rest =>
    if pending ∨ c = '\n' then '\\' :: c :: restored false rest
    else if c = '\\' then restored true rest
    else c :: restored false rest

theorem restored_escaped (c : Char) (rest : List Piece) :
    restored false (.pair '\\' :: .pair c :: rest) = '\\' :: c :: restored false rest := by
  simp [restored]

theorem restored_pieces_escapeWord (word : Text) :
    restored false (escapeWord word).pieces = word := by
  rw [pieces_escapeWord]
  fun_induction Text.pieces word with
  | case1 => rfl
  | case2 => rfl
  | case3 escaped rest ih =>
    rw [List.flatMap_cons, Piece.quoted, Piece.pieces_escapePair]
    split
    · rename_i feed
      rw [feed, List.singleton_append, restored, if_pos (.inr rfl), ih]
    · rw [List.cons_append, List.singleton_append, restored_escaped, ih]
  | case4 c rest other ih =>
    rw [List.flatMap_cons, Piece.pieces_quoted_plain]
    split
    · rename_i escaped
      have feed : c ≠ '\n' := by
        rintro rfl
        exact absurd escaped (by decide)
      rw [List.singleton_append, restored, if_neg (by simp [feed]), if_neg other, ih]
    · rw [List.singleton_append, restored, ih]

theorem quoteWord_injective : Function.Injective quoteWord := by
  intro word other same
  have inside : escapeWord word = escapeWord other :=
    (List.append_inj' (List.cons.inj same).2 rfl).1
  rw [← restored_pieces_escapeWord word, inside, restored_pieces_escapeWord]

/-- No continued line is left by one reading. -/
theorem unescape_escapeWord_ne (word rest : Text) :
    unescape (escapeWord word) ≠ '\\' :: '\n' :: rest := by
  rw [unescape_escapeWord]
  fun_induction Text.pieces word with
  | case1 | case2 => exact fun same => by cases same
  | case3 escaped word ih =>
    rw [List.flatMap_cons, Piece.once]
    split
    · rename_i special
      intro same
      have feed : escaped = '\n' := (List.cons.inj (List.cons.inj same).2).1
      exact absurd (feed ▸ special) (by decide)
    split
    · exact ih
    · intro same
      exact absurd (List.cons.inj (List.cons.inj same).2).1 (by decide)
  | case4 c word other ih => exact fun same => other (List.cons.inj same).1

/-- One reading gives a word back just if each backslash in it is one that the shell takes
away, or the last character. -/
theorem unescape_escapeWord_eq_self_iff (word : Text) :
    unescape (escapeWord word) = word ↔ ∀ c, .pair c ∈ word.pieces → c ∈ Piece.shellSpecial := by
  induction word using Text.pieces.induct with
  | case1 => exact ⟨fun _ _ => nofun, fun _ => rfl⟩
  | case2 => exact ⟨fun _ _ => by simp [Text.pieces], fun _ => rfl⟩
  | case3 escaped word ih =>
    have read : unescape (escapeWord ('\\' :: escaped :: word)) =
        (Piece.pair escaped).once ++ unescape (escapeWord word) := by
      rw [unescape_escapeWord, unescape_escapeWord, Text.pieces_pair, List.flatMap_cons]
    have split : (∀ c, .pair c ∈ Text.pieces ('\\' :: escaped :: word) →
        c ∈ Piece.shellSpecial) ↔
        escaped ∈ Piece.shellSpecial ∧ unescape (escapeWord word) = word := by
      simp [ih]
    rw [read, split, Piece.once]
    by_cases special : escaped ∈ Piece.shellSpecial
    · simp [special]
    by_cases feed : escaped = '\n'
    · subst feed
      simp only [special, ↓reduceIte, List.nil_append, false_and, iff_false]
      exact unescape_escapeWord_ne word word
    · have other : '\\' ≠ escaped := by
        rintro rfl
        exact special (by decide)
      simp [special, feed, other]
  | case4 c word other ih =>
    have read : unescape (escapeWord (c :: word)) = c :: unescape (escapeWord word) := by
      rw [unescape_escapeWord, unescape_escapeWord, Text.pieces_cons other]
      rfl
    rw [read, Text.pieces_cons other]
    simp [ih]

theorem bodies?_quoteWord (word : Text) : (quoteWord word).bodies? = some [escapeWord word] := by
  have single := Text.bodies?_intercalate (List.cons_ne_nil (escapeWord word) [])
    (List.forall_mem_singleton.2 (isBody_escapeWord word))
  rwa [List.map_singleton, List.intercalate_singleton] at single

/-- Between its quotes a quotation is a body in which no dollar sign stands free. No other word
has it, and one reading gives the word back if every escape in it is one to the shell. -/
theorem exists_body_quoteWord (word : Text) :
    ∃ body : Text, quoteWord word = '"' :: body ++ ['"'] ∧
      body.IsBody ∧ .plain '$' ∉ body.pieces ∧
      (quoteWord word).bodies? = some [body] ∧
      (∀ other, other ≠ word → quoteWord other ≠ quoteWord word) ∧
      (unescape body = word ↔ ∀ c, .pair c ∈ word.pieces → c ∈ Piece.shellSpecial) :=
  ⟨escapeWord word, rfl, isBody_escapeWord word, noParameter_escapeWord word,
    bodies?_quoteWord word, fun _ other => quoteWord_injective.ne other,
    unescape_escapeWord_eq_self_iff word⟩

end Bootscript.Shell
