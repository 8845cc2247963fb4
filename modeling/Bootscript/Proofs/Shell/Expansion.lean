import Bootscript.Proofs.Shell.Word
import Bootscript.Shell.Expansion

/-! What comes out of an expansion. A body in which each dollar sign and each backquote is
escaped has none in it and is read as it stands; a quoted word is such a body unless there is
a backquote in it, which quoting leaves free. A text without escapes yields itself in every
environment only if no expansion starts in it: one that yields nothing would make it shorter. -/
namespace Bootscript

def Shell.starters : List Char := ['\x60', '$']

structure Text.IsSealed (body : Text) : Prop extends body.IsBody where
  escaped : ∀ c ∈ Shell.starters, .plain c ∉ body.pieces

namespace Shell

section Step

variable (env : Environment) (rest : Text)

theorem expand?_quote : expand? env ('"' :: rest) = some ([], rest) := by
  rw [expand?.eq_def]
  rfl

theorem expand?_pair (c : Char) : expand? env ('\\' :: c :: rest) =
    (expand? env rest).map fun (value, after) => ((Piece.pair c).unescaped ++ value, after) := by
  rw [expand?.eq_def]
  simp

theorem expand?_plain {c : Char} (alone : c ∉ ['"', '\\'])
    (start : startsExpansion c rest = false) :
    expand? env (c :: rest) =
      (expand? env rest).map fun (value, after) => (c :: value, after) := by
  rw [List.mem_cons, List.mem_singleton, not_or] at alone
  rw [expand?.eq_def]
  simp [alone, start]

end Step

/-- A quote ends the word as the end of the text does. -/
@[simp] theorem startsExpansion_append_quote (c : Char) (text rest : Text) :
    startsExpansion c (text ++ '"' :: rest) = startsExpansion c text := by
  have neither : isNameChar '"' = false ∧ isOpening '"' = false := by decide
  cases text with
  | nil => simp [startsExpansion, neither]
  | cons d text => rfl

theorem startsExpansion_of_not_mem {c : Char} (other : c ∉ starters) (rest : Text) :
    startsExpansion c rest = false := by
  rw [starters, List.mem_cons, List.mem_singleton, not_or] at other
  simp [startsExpansion, other]

section Sealed

variable (env : Environment) {body : Text} (isSealed : body.IsSealed)
include isSealed

theorem expand?_append_of_isSealed (rest : Text) :
    expand? env (body ++ rest) =
      (expand? env rest).map fun (value, after) => (unescape body ++ value, after) := by
  obtain ⟨⟨whole, noQuote⟩, escaped⟩ := isSealed
  rw [Text.IsWhole] at whole
  rw [unescape]
  fun_induction Text.pieces body with
  | case1 => simp
  | case2 => exact absurd (List.mem_singleton_self _) whole
  | case3 c body ih =>
    rw [List.mem_cons, not_or] at whole noQuote
    have further := fun c starter inside => escaped c starter (List.mem_cons_of_mem _ inside)
    rw [List.cons_append, List.cons_append, expand?_pair, ih further whole.2 noQuote.2]
    simp [Function.comp_def]
  | case4 c body other ih =>
    rw [List.mem_cons, not_or] at whole noQuote
    have further := fun c starter inside => escaped c starter (List.mem_cons_of_mem _ inside)
    have free : c ≠ '"' := fun same => noQuote.1 (same ▸ rfl)
    have start : startsExpansion c (body ++ rest) = false :=
      startsExpansion_of_not_mem (fun starter => escaped c starter (List.mem_cons_self ..)) _
    rw [List.cons_append, expand?_plain env _ (by simp [free, other]) start,
      ih further whole.2 noQuote.2]
    simp [Function.comp_def, Piece.unescaped]

/-- A sealed body means what is left of it without its escapes, in every environment. -/
theorem expand?_of_isSealed (rest : Text) :
    expand? env (body ++ '"' :: rest) = some (unescape body, rest) := by
  rw [expand?_append_of_isSealed env isSealed, expand?_quote]
  simp

theorem expandBody?_of_isSealed : expandBody? env body = some (unescape body) := by
  rw [expandBody?, expand?_of_isSealed env isSealed]

end Sealed

theorem noParameter_escapeWord (word : Text) : .plain '$' ∉ (escapeWord word).pieces := by
  intro inside
  rcases mem_pieces_escapeWord inside with ⟨c, alone, same, _⟩ | ⟨c, absurd, _⟩
  · exact alone (Piece.plain.inj same ▸ by decide)
  · cases absurd

/-- Quotation seals a word in which no backquote stands free. -/
theorem isSealed_escapeWord {word : Text} (clear : .plain '\x60' ∉ word.pieces) :
    (escapeWord word).IsSealed where
  toIsBody := isBody_escapeWord word
  escaped c starter inside := by
    simp only [starters, List.mem_cons, List.not_mem_nil, or_false] at starter
    rcases starter with rfl | rfl
    · rcases mem_pieces_escapeWord inside with ⟨c, _, same, origin⟩ | ⟨c, absurd, _⟩
      · exact clear (same ▸ origin)
      · cases absurd
    · exact noParameter_escapeWord word inside

theorem escapeWord_of_disjoint {word : Text} (clear : List.Disjoint Piece.escapedAlone word) :
    escapeWord word = word := by
  have noBackslash : '\\' ∉ word := clear (by decide)
  have alone : ∀ c ∈ word, (Piece.plain c).quoted = [c] := by
    intro c member
    have free : c ∉ Piece.escapedAlone := fun special => clear special member
    simp only [Piece.escapedAlone, List.mem_cons, List.not_mem_nil, or_false, not_or] at free
    simp [Piece.quoted, free]
  rw [escapeWord_eq, Text.pieces_of_not_mem noBackslash, List.flatMap_map,
    List.flatMap_congr alone]
  exact List.flatMap_singleton' word

section Substitution

variable (env : Environment)

theorem expand?_append_of_disjoint {front : Text} (clear : List.Disjoint Piece.shellSpecial front)
    (rest : Text) : expand? env (front ++ rest) =
      (expand? env rest).map fun (value, after) => (front ++ value, after) := by
  have quotes : ∀ c ∈ ['"', '\\'], c ∈ Piece.shellSpecial := by simp [Piece.shellSpecial]
  have starts : ∀ c ∈ starters, c ∈ Piece.shellSpecial := by simp [starters, Piece.shellSpecial]
  induction front with
  | nil => simp
  | cons c front ih =>
    rw [List.disjoint_cons_right] at clear
    obtain ⟨free, clear⟩ := clear
    rw [List.cons_append, expand?_plain env _ (mt (quotes c) free)
      (startsExpansion_of_not_mem (mt (starts c) free) _), ih clear, Option.map_map]
    rfl

theorem closing?_of_disjoint {command : Text} (clear : List.Disjoint Piece.shellSpecial command)
    (rest : Text) :
    closing? '\x60' '\x60' 0 (command ++ '\x60' :: rest) = some (command.length + 1) := by
  induction command with
  | nil =>
    rw [List.nil_append, closing?.eq_def]
    rfl
  | cons c command ih =>
    rw [List.disjoint_cons_right] at clear
    obtain ⟨free, clear⟩ := clear
    simp only [Piece.shellSpecial, List.mem_cons, List.not_mem_nil, or_false, not_or] at free
    rw [List.cons_append, closing?.eq_def]
    simp [free, ih clear]

/-- A script's name has one digit, whatever follows it. -/
theorem expand?_script (rest : Text) : expand? env ('$' :: '0' :: rest) =
    (env "$0".toList).bind fun found =>
      (expand? env rest).map fun (value, after) => (found ++ value, after) := by
  have start : startsExpansion '$' ('0' :: rest) = true := rfl
  have extent : extent? '$' ('0' :: rest) = some 1 := rfl
  have other : '$' ≠ '"' ∧ '$' ≠ '\\' := by decide
  rw [expand?.eq_def]
  simp only [start, extent, other, ↓reduceIte, Option.bind_some, Option.bind_eq_bind,
    Option.map_eq_bind]
  rfl

/-- What the environment gives for a command in backquotes comes in their place. -/
theorem expand?_substitution {command : Text} (clear : List.Disjoint Piece.shellSpecial command)
    (rest : Text) :
    expand? env ('\x60' :: (command ++ '\x60' :: rest)) =
      (env ('\x60' :: command ++ ['\x60'])).bind fun found =>
        (expand? env rest).map fun (value, after) => (found ++ value, after) := by
  have extent : extent? '\x60' (command ++ '\x60' :: rest) = some (command.length + 1) := by
    rw [← closing?_of_disjoint clear rest]
    cases command <;> rfl
  have start : startsExpansion '\x60' (command ++ '\x60' :: rest) = true := rfl
  have inside : (command ++ '\x60' :: rest).take (command.length + 1) = command ++ ['\x60'] := by
    simp [List.take_append, List.take_of_length_le]
  have behind : (command ++ '\x60' :: rest).drop (command.length + 1) = rest := by
    simp [List.drop_append]
  have other : '\x60' ≠ '"' ∧ '\x60' ≠ '\\' := by decide
  rw [expand?.eq_def]
  simp only [start, extent, inside, behind, other, ↓reduceIte, Option.bind_some,
    Option.bind_eq_bind, List.cons_append, Option.map_eq_bind]
  rfl

end Substitution

/-- Words whose quotations are sealed are read as they would be without an environment. -/
theorem mapM_expandBody?_escapeWord (env : Environment) {words : List Text}
    (clear : ∀ word ∈ words, .plain '\x60' ∉ Text.pieces word) :
    (words.map escapeWord).mapM (expandBody? env) =
      some (words.map fun word => unescape (escapeWord word)) := by
  induction words with
  | nil => rfl
  | cons word words ih =>
    rw [List.forall_mem_cons] at clear
    rw [List.map_cons, List.mapM_cons, expandBody?_of_isSealed env (isSealed_escapeWord clear.1),
      ih clear.2]
    rfl

theorem expand?_of_not_hasExpansion (env : Environment) {text : Text}
    (clear : List.Disjoint ['"', '\\'] text) (inert : hasExpansion text = false) (rest : Text) :
    expand? env (text ++ '"' :: rest) = some (text, rest) := by
  induction text with
  | nil => exact expand?_quote env rest
  | cons c text ih =>
    rw [List.disjoint_cons_right] at clear
    rw [hasExpansion, Bool.or_eq_false_iff] at inert
    rw [List.cons_append, expand?_plain _ _ clear.1 (by simp [inert]), ih clear.2 inert.2]
    rfl

def emptied : Environment := fun _ => some []

theorem exists_drop_of_expand?_emptied {c : Char} {rest value after : Text}
    (start : startsExpansion c rest)
    (expanded : expand? emptied (c :: rest) = some (value, after)) :
    ∃ extent, expand? emptied (rest.drop extent) = some (value, after) := by
  have starter : c ∈ starters := by
    by_contra other
    rw [startsExpansion_of_not_mem other] at start
    cases start
  have alone : c ≠ '"' ∧ c ≠ '\\' := by
    rw [starters, List.mem_cons, List.mem_singleton] at starter
    rcases starter with rfl | rfl <;> decide
  rw [expand?.eq_def] at expanded
  simp only [alone, start, ↓reduceIte, Option.bind_eq_bind] at expanded
  obtain ⟨extent, _, expanded⟩ := Option.bind_eq_some_iff.1 expanded
  obtain ⟨first, nothing, expanded⟩ := Option.bind_eq_some_iff.1 expanded
  obtain rfl := Option.some.inj nothing
  obtain ⟨read, expanded, same⟩ := Option.bind_eq_some_iff.1 expanded
  exact ⟨extent, expanded.trans same⟩

/-- Without what the environment adds, a word is shorter than the text it is read from. -/
theorem length_lt_of_expand?_emptied {text value after : Text}
    (expanded : expand? emptied text = some (value, after)) :
    value.length + after.length < text.length := by
  fun_induction expand? emptied text generalizing value with
  | case1 => cases expanded
  | case2 => cases expanded; simp
  | case3 => cases expanded
  | case4 escaped rest _ ih =>
    obtain ⟨⟨value, after⟩, expanded, same⟩ := Option.map_eq_some_iff.1 expanded
    cases same
    have pair : (Piece.pair escaped).unescaped.length ≤ 2 := by
      rw [Piece.unescaped]
      split_ifs <;> simp
    have := ih expanded
    simp only [List.length_append, List.length_cons]
    omega
  | case5 c rest quote back start ih =>
    have opened : expand? emptied (c :: rest) = some (value, after) := by
      rw [expand?.eq_def]
      simpa [quote, back, start] using expanded
    obtain ⟨extent, expanded⟩ := exists_drop_of_expand?_emptied start opened
    have := ih extent expanded
    simp only [List.length_drop, List.length_cons] at this ⊢
    omega
  | case6 c rest _ _ _ ih =>
    obtain ⟨⟨value, after⟩, expanded, same⟩ := Option.map_eq_some_iff.1 expanded
    cases same
    have := ih expanded
    simp only [List.length_cons]
    omega

theorem expand?_emptied_ne {text : Text} (clear : List.Disjoint ['"', '\\'] text)
    (starts : hasExpansion text) (rest : Text) :
    expand? emptied (text ++ '"' :: rest) ≠ some (text, rest) := by
  induction text with
  | nil => cases starts
  | cons c text ih =>
    rw [List.disjoint_cons_right] at clear
    intro expanded
    rw [List.cons_append] at expanded
    by_cases start : startsExpansion c text
    · obtain ⟨extent, expanded⟩ := exists_drop_of_expand?_emptied (by simp [start]) expanded
      have shorter := length_lt_of_expand?_emptied expanded
      simp only [List.length_drop, List.length_append, List.length_cons] at shorter
      omega
    · rw [Bool.not_eq_true] at start
      rw [hasExpansion, start, Bool.false_or] at starts
      rw [expand?_plain _ _ clear.1 (by simp [start])] at expanded
      obtain ⟨⟨value, after⟩, expanded, same⟩ := Option.map_eq_some_iff.1 expanded
      simp only [Prod.mk.injEq, List.cons.injEq, true_and] at same
      obtain ⟨rfl, rfl⟩ := same
      exact ih clear.2 starts expanded

/-- Text before a quote means itself in every environment just if no expansion starts in it. -/
theorem expand?_eq_self_iff {text : Text} (clear : List.Disjoint ['"', '\\'] text)
    (rest : Text) :
    (∀ env, expand? env (text ++ '"' :: rest) = some (text, rest)) ↔
      hasExpansion text = false := by
  constructor
  · intro literal
    rw [← Bool.not_eq_true]
    exact fun starts => expand?_emptied_ne clear starts rest (literal emptied)
  · exact fun inert env => expand?_of_not_hasExpansion env clear inert rest

end Shell
end Bootscript
