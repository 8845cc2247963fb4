import Bootscript.Text.Piece
import Mathlib.Data.List.Basic
import Mathlib.Data.List.TakeWhile

/-! Pieces of quoted text. Texts of which no backslash reaches out can be cut into pieces
one by one, and bodies of which no quote stands free can be read out of a run of strings. -/
namespace Bootscript

namespace Piece

theorem readAll_append (read : Piece → Option Text) (before after : List Piece) :
    readAll read (before ++ after) =
      (readAll read before).bind fun text => (readAll read after).map (text ++ ·) := by
  induction before with
  | nil => simp [readAll]
  | cons piece before ih =>
    rw [List.cons_append, readAll, readAll, ih]
    cases read piece with
    | none => rfl
    | some text => cases readAll read before <;> cases readAll read after <;> simp

theorem isSome_readAll_iff {read : Piece → Option Text} {pieces : List Piece} :
    (readAll read pieces).isSome ↔ ∀ piece ∈ pieces, (read piece).isSome := by
  induction pieces with
  | nil => simp [readAll]
  | cons piece pieces ih =>
    rw [List.forall_mem_cons, ← ih, readAll]
    cases read piece <;> cases readAll read pieces <;> simp

end Piece

namespace Text

@[simp] theorem pieces_nil : pieces [] = [] := rfl

theorem pieces_cons {c : Char} (other : c ≠ '\\') (rest : Text) :
    pieces (c :: rest) = .plain c :: pieces rest := by
  cases rest <;> simp [pieces, other]

@[simp] theorem pieces_pair (c : Char) (rest : Text) :
    pieces ('\\' :: c :: rest) = .pair c :: pieces rest := rfl

theorem text_pieces (t : Text) : t.pieces.flatMap Piece.text = t := by
  fun_induction pieces t with
  | case1 => rfl
  | case2 => rfl
  | case3 escaped rest ih => simp [Piece.text, ih]
  | case4 c rest other ih => simp [Piece.text, ih]

theorem mem_of_mem_pieces {t : Text} {p : Piece} (member : p ∈ t.pieces) {c : Char}
    (inside : c ∈ p.text) : c ∈ t := by
  rw [← text_pieces t]
  exact List.mem_flatMap.2 ⟨p, member, inside⟩

theorem plain_mem_pieces_iff {t : Text} {c : Char} (other : c ≠ '\\') (noPair : .pair c ∉ t.pieces) :
    .plain c ∈ t.pieces ↔ c ∈ t := by
  refine ⟨fun member => mem_of_mem_pieces member (List.mem_singleton_self c), fun inside => ?_⟩
  rw [← text_pieces t] at inside
  obtain ⟨p, origin, inside⟩ := List.mem_flatMap.1 inside
  cases p with
  | plain d => rwa [List.mem_singleton.1 inside]
  | pair d =>
    rcases List.mem_pair.1 inside with back | rfl
    · exact absurd back other
    · exact absurd origin noPair

theorem pieces_of_not_mem {t : Text} (clear : '\\' ∉ t) : t.pieces = t.map .plain := by
  induction t with
  | nil => rfl
  | cons c t ih =>
    rw [List.mem_cons, not_or] at clear
    rw [pieces_cons (Ne.symm clear.1), ih clear.2, List.map_cons]

def IsWhole (t : Text) : Prop := .plain '\\' ∉ t.pieces

instance (t : Text) : Decidable t.IsWhole := inferInstanceAs (Decidable (_ ∉ _))

theorem pieces_append {first : Text} (whole : first.IsWhole) (second : Text) :
    (first ++ second).pieces = first.pieces ++ second.pieces := by
  unfold IsWhole at whole
  fun_induction pieces first with
  | case1 => rfl
  | case2 => exact (whole (List.mem_singleton_self _)).elim
  | case3 escaped rest ih =>
    rw [List.mem_cons, not_or] at whole
    rw [List.cons_append, List.cons_append, pieces_pair, ih whole.2, List.cons_append]
  | case4 c rest other ih =>
    rw [List.mem_cons, not_or] at whole
    rw [List.cons_append, pieces_cons other, ih whole.2, List.cons_append]

theorem IsWhole.append {first second : Text} (whole : first.IsWhole) (whole' : second.IsWhole) :
    (first ++ second).IsWhole := by
  rw [IsWhole, pieces_append whole, List.mem_append, not_or]
  exact ⟨whole, whole'⟩

theorem isWhole_of_not_mem {t : Text} (clear : '\\' ∉ t) : t.IsWhole := by
  rw [IsWhole, pieces_of_not_mem clear]
  intro member
  obtain ⟨c, inside, same⟩ := List.mem_map.1 member
  exact clear (Piece.plain.inj same ▸ inside)

/-- What is written piece by piece is cut into pieces as it was written. -/
theorem pieces_flatMap {ps : List Piece} {write : Piece → Text}
    (whole : ∀ piece ∈ ps, (write piece).IsWhole) :
    pieces (ps.flatMap write) = ps.flatMap fun piece => (write piece).pieces := by
  induction ps with
  | nil => rfl
  | cons piece ps ih =>
    rw [List.forall_mem_cons] at whole
    rw [List.flatMap_cons, List.flatMap_cons, pieces_append whole.1, ih whole.2]

theorem isWhole_flatMap {ps : List Piece} {write : Piece → Text}
    (whole : ∀ piece ∈ ps, (write piece).IsWhole) : IsWhole (ps.flatMap write) := by
  rw [IsWhole, pieces_flatMap whole]
  intro member
  obtain ⟨piece, origin, inside⟩ := List.mem_flatMap.1 member
  exact whole piece origin inside

theorem octal_prefix (t : Text) : t.octal <+: t :=
  (List.take_prefix ..).trans (List.takeWhile_prefix _)

theorem of_mem_octal {t : Text} {d : Char} (member : d ∈ t.octal) : '0' ≤ d ∧ d ≤ '7' := by
  have digit := List.mem_takeWhile_imp ((List.take_sublist ..).subset member)
  simpa using digit

/-- A body that fits between two quotes: neither a quote nor the last backslash in it
stands free. -/
structure IsBody (t : Text) : Prop where
  whole : t.IsWhole
  noQuote : .plain '"' ∉ t.pieces

theorem bodiesOnto_cons {c : Char} (other : c ≠ '\\') (free : c ≠ '"') (read rest : Text) :
    bodiesOnto read (c :: rest) = bodiesOnto (c :: read) rest := by
  cases rest <;> simp [bodiesOnto, other, free]

theorem bodiesOnto_append {body : Text} (closed : body.IsBody) (read rest : Text) :
    bodiesOnto read (body ++ rest) = bodiesOnto (body.reverse ++ read) rest := by
  obtain ⟨whole, noQuote⟩ := closed
  unfold IsWhole at whole
  fun_induction pieces body generalizing read with
  | case1 => rfl
  | case2 => exact (whole (List.mem_singleton_self _)).elim
  | case3 escaped body ih =>
    rw [List.mem_cons, not_or] at whole noQuote
    have pair : bodiesOnto read ('\\' :: escaped :: (body ++ rest)) =
        bodiesOnto (escaped :: '\\' :: read) (body ++ rest) := rfl
    rw [List.cons_append, List.cons_append, pair, ih _ whole.2 noQuote.2]
    simp
  | case4 c body other ih =>
    rw [List.mem_cons, not_or] at whole noQuote
    have free : c ≠ '"' := fun same => noQuote.1 (same ▸ rfl)
    rw [List.cons_append, bodiesOnto_cons other free, ih _ whole.2 noQuote.2]
    simp

theorem bodiesOnto_run {body : Text} {bodies : List Text} (closed : body.IsBody)
    (closed' : ∀ body ∈ bodies, body.IsBody) :
    bodiesOnto [] (body ++ '"' :: bodies.flatMap fun body => ' ' :: '"' :: body ++ ['"']) =
      some (body :: bodies) := by
  induction bodies generalizing body with
  | nil => simp [bodiesOnto_append closed, bodiesOnto]
  | cons next bodies ih =>
    rw [List.forall_mem_cons] at closed'
    rw [bodiesOnto_append closed, List.flatMap_cons]
    have gap (rest : Text) : bodiesOnto (body.reverse ++ []) ('"' :: ' ' :: '"' :: rest) =
        (bodiesOnto [] rest).map (body :: ·) := by
      simp [bodiesOnto, bodies?]
    rw [List.cons_append, List.cons_append, List.cons_append, List.cons_append, gap,
      List.append_assoc]
    exact congrArg (Option.map (body :: ·)) (ih closed'.1 closed'.2)

theorem intercalate_cons (separator first : Text) (rest : List Text) :
    separator.intercalate (first :: rest) = first ++ rest.flatMap (separator ++ ·) := by
  induction rest generalizing first with
  | nil => simp
  | cons next rest ih =>
    rw [List.intercalate_cons_cons, ih, List.flatMap_cons, List.append_assoc, List.append_assoc]

/-- Bodies are read back from between quotes. -/
theorem bodies?_intercalate {bodies : List Text} (nonempty : bodies ≠ [])
    (closed : ∀ body ∈ bodies, body.IsBody) :
    bodies? ([' '].intercalate (bodies.map fun body => '"' :: body ++ ['"'])) = some bodies := by
  obtain ⟨body, bodies, rfl⟩ := List.exists_cons_of_ne_nil nonempty
  rw [List.forall_mem_cons] at closed
  have run := bodiesOnto_run closed.1 closed.2
  rw [List.map_cons, intercalate_cons, List.flatMap_map, List.cons_append, List.cons_append,
    List.append_assoc, bodies?, if_pos rfl]
  exact run

end Text
end Bootscript
