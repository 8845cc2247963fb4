import Bootscript.Proofs.Shell.Layers
import Bootscript.Proofs.Shell.Quotation

/-! A program text in the layers of quotation that the launcher puts around it. Whatever the
text, it comes out of the shell, `eval` and `printf` as it went in, if none of its own escapes
is one to any of them. A backslash at its end escapes nothing, and survives as well. -/
namespace Bootscript

namespace Text

theorem infix_of_pair_mem_pieces {t : Text} {c : Char} (member : .pair c ∈ t.pieces) :
    ['\\', c] <:+: t := by
  obtain ⟨before, after, split⟩ := List.append_of_mem member
  refine ⟨before.flatMap Piece.text, after.flatMap Piece.text, ?_⟩
  rw [← text_pieces t, split, List.flatMap_append, List.flatMap_cons, ← List.append_assoc]
  rfl

/-- Only the last backslash of a text can reach out of it. -/
theorem exists_isWhole_append (t : Text) :
    ∃ front back : Text, t = front ++ back ∧ front.IsWhole ∧ (back = [] ∨ back = ['\\']) := by
  fun_induction pieces t with
  | case1 => exact ⟨[], [], rfl, List.not_mem_nil, .inl rfl⟩
  | case2 => exact ⟨[], ['\\'], rfl, List.not_mem_nil, .inr rfl⟩
  | case3 escaped rest ih =>
    obtain ⟨front, back, rfl, whole, last⟩ := ih
    refine ⟨'\\' :: escaped :: front, back, rfl, ?_, last⟩
    simpa [IsWhole] using whole
  | case4 c rest other ih =>
    obtain ⟨front, back, rfl, whole, last⟩ := ih
    refine ⟨c :: front, back, rfl, ?_, last⟩
    simpa [IsWhole, pieces_cons other, Ne.symm other] using whole

theorem IsBody.append {first second : Text} (closed : first.IsBody) (closed' : second.IsBody) :
    (first ++ second).IsBody where
  whole := closed.whole.append closed'.whole
  noQuote := by
    rw [pieces_append closed.whole, List.mem_append, not_or]
    exact ⟨closed.noQuote, closed'.noQuote⟩

end Text

namespace Shell

theorem escapeBackslashes_append {first : Text} (whole : first.IsWhole) (second : Text) :
    escapeBackslashes (first ++ second) =
      escapeBackslashes first ++ escapeBackslashes second := by
  rw [escapeBackslashes_eq, Text.pieces_append whole, List.flatMap_append, ← escapeBackslashes_eq,
    ← escapeBackslashes_eq]

theorem unescape_append {first : Text} (whole : first.IsWhole) (second : Text) :
    unescape (first ++ second) = unescape first ++ unescape second := by
  rw [unescape, Text.pieces_append whole, List.flatMap_append]
  rfl

section Last

variable {back : Text} (last : back = [] ∨ back = ['\\'])
include last

theorem onOneLine_escapeBackslashes_last : onOneLine (escapeBackslashes back) = back ++ back := by
  rcases last with rfl | rfl <;> rfl

theorem unescape_escapeWord_last : unescape (escapeWord (back ++ back)) = back ++ back := by
  rcases last with rfl | rfl <;> rfl

theorem unescape_last : unescape (back ++ back) = back := by
  rcases last with rfl | rfl <;> rfl

theorem isBody_last : (back ++ back).IsBody := by
  rcases last with rfl | rfl <;> exact ⟨by decide, by decide⟩

end Last

section Front

variable {front : Text} (layered : ∀ piece ∈ front.pieces, piece.IsLayered)
include layered

theorem isBody_evaluated : Text.IsBody (front.pieces.flatMap Piece.evaluated) where
  whole := Text.isWhole_flatMap fun p member => Piece.isWhole_evaluated (layered p member)
  noQuote := by
    rw [Text.pieces_flatMap fun p member => Piece.isWhole_evaluated (layered p member)]
    intro member
    obtain ⟨p, inside, quote⟩ := List.mem_flatMap.1 member
    exact Piece.noQuote_evaluated (layered p inside) quote

theorem mem_of_pair_mem_printed {c : Char}
    (member : .pair c ∈ Text.pieces (front.pieces.flatMap Piece.printed)) :
    c = '\\' ∨ c = 'n' := by
  rw [Text.pieces_flatMap fun p inside => Piece.isWhole_printed (layered p inside)] at member
  obtain ⟨p, origin, inside⟩ := List.mem_flatMap.1 member
  rw [Piece.pieces_printed (layered p origin)] at inside
  cases p with
  | plain d =>
    by_cases feed : d = '\n'
    · simp only [feed, ↓reduceIte, List.mem_singleton, Piece.pair.injEq] at inside
      exact .inr inside
    · simp [feed] at inside
  | pair d =>
    simp only [List.mem_cons, Piece.pair.injEq, reduceCtorEq, List.not_mem_nil, or_false] at inside
    exact .inl inside

end Front

section Whole

variable {front back : Text} (whole : front.IsWhole)
  (layered : ∀ piece ∈ front.pieces, piece.IsLayered) (last : back = [] ∨ back = ['\\'])
include layered last

include whole in
/-- The word of an assignment when the shell has read it. -/
theorem unescape_escapeWord_assignment :
    unescape (escapeWord ("py=\"".toList ++ onOneLine (escapeBackslashes (front ++ back)) ++ ['"'])) =
      "py=\"".toList ++ (front.pieces.flatMap Piece.evaluated ++ (back ++ back)) ++ ['"'] := by
  have read {word : Text} (clear : '\\' ∉ word) := unescape_escapeWord_of_not_mem clear
  have opening : Text.IsWhole "py=\"".toList := Text.isWhole_of_not_mem (by decide)
  have value : Text.IsWhole (front.pieces.flatMap Piece.value) :=
    Text.isWhole_flatMap fun p member => Piece.isWhole_value (layered p member)
  have line : onOneLine (escapeBackslashes (front ++ back)) =
      front.pieces.flatMap Piece.value ++ (back ++ back) := by
    rw [escapeBackslashes_append whole, onOneLine, List.flatMap_append, ← onOneLine, ← onOneLine,
      onOneLine_escapeBackslashes layered, onOneLine_escapeBackslashes_last last]
  have inner := value.append (isBody_last last).whole
  rw [line, unescape_escapeWord_append (opening.append inner), unescape_escapeWord_append opening,
    unescape_escapeWord_append value, read (show '\\' ∉ "py=\"".toList by decide),
    read (show '\\' ∉ ['"'] by decide), unescape_escapeWord_value layered,
    unescape_escapeWord_last last]

/-- The text that `printf` is given when `eval` has made the assignment. -/
theorem unescape_evaluated_append :
    unescape (front.pieces.flatMap Piece.evaluated ++ (back ++ back)) =
      front.pieces.flatMap Piece.printed ++ back := by
  rw [unescape_append (isBody_evaluated layered).whole, unescape_evaluated layered,
    unescape_last last]

theorem pieces_printed_append :
    Text.pieces (front.pieces.flatMap Piece.printed ++ back) =
      Text.pieces (front.pieces.flatMap Piece.printed) ++ back.map .plain := by
  have single : back.pieces = back.map .plain := by rcases last with rfl | rfl <;> rfl
  rw [Text.pieces_append (Text.isWhole_flatMap fun p member =>
    Piece.isWhole_printed (layered p member)), single]

theorem printf?_printed_append :
    printf? (front.pieces.flatMap Piece.printed ++ back) = some (front ++ back) := by
  have read := printf?_printed layered
  have single : Piece.readAll Piece.printed? (back.map .plain) = some back := by
    rcases last with rfl | rfl <;> rfl
  rw [printf?] at read ⊢
  rw [pieces_printed_append layered last, Piece.readAll_append, read, single]
  rfl

end Whole

theorem isLayered_of_mem_pieces {front back : Text} (whole : front.IsWhole)
    (noQuote : '"' ∉ front) (noBackquote : '\x60' ∉ front)
    (harmless : ∀ c ∈ ['\\', '$', '\n'], ¬['\\', c] <:+: front ++ back) {piece : Piece}
    (member : piece ∈ front.pieces) : piece.IsLayered := by
  cases piece with
  | plain c =>
    have inside : c ∈ front := Text.mem_of_mem_pieces member (List.mem_singleton_self _)
    exact ⟨fun same => whole (same ▸ member), ne_of_mem_of_not_mem inside noQuote⟩
  | pair c =>
    have inside : c ∈ front :=
      Text.mem_of_mem_pieces member (List.mem_cons_of_mem _ (List.mem_singleton_self _))
    have escape := (Text.infix_of_pair_mem_pieces member).trans (List.infix_append' [] front back)
    have free : c ∉ ['\\', '$', '\n'] := fun special => harmless c special escape
    have quote : c ≠ '"' := ne_of_mem_of_not_mem inside noQuote
    have backquote : c ≠ '\x60' := ne_of_mem_of_not_mem inside noBackquote
    simp only [List.mem_cons, List.not_mem_nil, or_false, not_or] at free
    exact ⟨by simp [Piece.shellSpecial, free, quote, backquote], free.2.2⟩

/-- A text without quotes and backquotes, whose backslashes stand before none of the characters
that a reader takes for more than themselves, gets to `printf` in a single word of the shell and
a single assignment, and is what `printf` prints. -/
theorem printf?_quoteWord {t : Text} (noQuote : '"' ∉ t) (noBackquote : '\x60' ∉ t)
    (harmless : ∀ c ∈ ['\\', '$', '\n'], ¬['\\', c] <:+: t) :
    let word := "py=\"".toList ++ onOneLine (escapeBackslashes t) ++ ['"']
    ∃ body x : Text, quoteWord word = '"' :: body ++ ['"'] ∧
      (quoteWord word).bodies? = some [body] ∧
      unescape body = "py=\"".toList ++ x ++ ['"'] ∧ x.IsBody ∧
      printf? (unescape x) = some t ∧
      ∀ c, .pair c ∈ (unescape x).pieces → c = '\\' ∨ c = 'n' := by
  intro word
  obtain ⟨front, back, rfl, whole, last⟩ := t.exists_isWhole_append
  rw [List.mem_append, not_or] at noQuote noBackquote
  have layered : ∀ piece ∈ front.pieces, piece.IsLayered := fun _ =>
    isLayered_of_mem_pieces whole noQuote.1 noBackquote.1 harmless
  refine ⟨escapeWord word, front.pieces.flatMap Piece.evaluated ++ (back ++ back), rfl,
    bodies?_quoteWord word, unescape_escapeWord_assignment whole layered last,
    (isBody_evaluated layered).append (isBody_last last), ?_, ?_⟩
  · rw [unescape_evaluated_append layered last, printf?_printed_append layered last]
  · intro c member
    rw [unescape_evaluated_append layered last, pieces_printed_append layered last,
      List.mem_append] at member
    rcases member with inside | alone
    · exact mem_of_pair_mem_printed layered inside
    · obtain ⟨_, _, absurd⟩ := List.mem_map.1 alone
      cases absurd

/-- Escapes that are none to any reader, a dollar sign, a line break, and a last backslash. -/
theorem printf?_quoteWord_last :
    let t := "print('\\t$0')\n\\n\\".toList
    let word := "py=\"".toList ++ onOneLine (escapeBackslashes t) ++ ['"']
    word = "py=\"print('\\\\\\t$0')\\n\\\\\\n\\\\\"".toList ∧
      ∃ body x : Text, quoteWord word = '"' :: body ++ ['"'] ∧
        unescape body = "py=\"".toList ++ x ++ ['"'] ∧ printf? (unescape x) = some t := by
  intro t word
  have harmless : ∀ c ∈ ['\\', '$', '\n'], ¬['\\', c] <:+: t := by simp [t, List.infix_cons_iff]
  obtain ⟨body, x, quoted, _, read, _, printed, _⟩ :=
    printf?_quoteWord (t := t) (by decide) (by decide) harmless
  exact ⟨by decide +kernel, body, x, quoted, read, printed⟩

end Shell
end Bootscript
