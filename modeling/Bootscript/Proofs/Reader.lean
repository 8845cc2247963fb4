import Bootscript.Reader
import Bootscript.Proofs.Lines

/-! What a reader delivers, call by call, are the lines of the file as they can be told
from the whole of it. The flags of the reader come to the rule for the last line. -/
namespace Bootscript.Reader

section Cut

theorem split_append_feed {piece : Bytes} (noFeed : 0x0A ∉ piece) (rest : Bytes) :
    split 0x0A (piece ++ 0x0A :: rest) = piece :: split 0x0A rest := by
  obtain ⟨first, more, parts⟩ := List.exists_cons_of_ne_nil (split_ne_nil 0x0A rest)
  have whole : [0x0A].intercalate (piece :: split 0x0A rest) = piece ++ 0x0A :: rest := by
    rw [parts, List.intercalate_cons_cons, ← parts, intercalate_split, List.append_assoc,
      List.singleton_append]
  rw [← whole]
  apply split_intercalate _ (List.cons_ne_nil _ _)
  intro other member
  rcases List.mem_cons.1 member with rfl | later
  · exact noFeed
  · exact not_mem_of_mem_split later

theorem cut_of_not_mem {data : Bytes} (noFeed : 0x0A ∉ data) : cut data = (data, []) := by
  have others : ∀ b ∈ data, decide (b ≠ 0x0A) := by
    intro b member
    exact decide_eq_true (ne_of_mem_of_not_mem member noFeed)
  rw [cut, List.dropWhile_eq_nil_iff.2 others]

theorem cut_append_feed {piece : Bytes} (noFeed : 0x0A ∉ piece) (rest : Bytes) :
    cut (piece ++ 0x0A :: rest) = (piece ++ [0x0A], rest) := by
  have others : ∀ b ∈ piece, decide (b ≠ 0x0A) := by
    intro b member
    exact decide_eq_true (ne_of_mem_of_not_mem member noFeed)
  rw [cut, List.dropWhile_append_of_pos others, List.takeWhile_append_of_pos others]
  simp

theorem length_cut_lt {data : Bytes} (some : data ≠ []) : (cut data).2.length < data.length := by
  rw [cut]
  split
  · exact List.length_pos_iff.2 some
  · rename_i feed rest behind
    have suffix := List.dropWhile_suffix (· ≠ 0x0A) (l := data)
    rw [behind] at suffix
    exact suffix.length_le

end Cut

section Line

variable {piece : Bytes} {line : Text}

theorem decode?_append_feed (noFeed : 0x0A ∉ piece) :
    Text.decode? (piece ++ [0x0A]) = (Text.decode? piece).map (· ++ ['\n']) := by
  cases decoded : Text.decode? piece with
  | none =>
    have member : none ∈ Lines.physical (piece ++ [0x0A]) := by
      rw [Lines.physical, split_append_feed noFeed]
      simp [Lines.decodeLine, decoded]
    rw [Lines.decode?_eq_none_iff.2 member, Option.map_none]
  | some line =>
    rw [Text.decode?_eq_some_iff.1 decoded, Option.map_some, Text.decode?_eq_some_iff,
      Text.encode_append]
    rfl

theorem trim_of_not_mem (noFeed : '\n' ∉ line) : trim line = Line.chomp line := by
  have same (text : Text) (clear : '\n' ∉ text) :
      text.dropWhile (fun c => c = '\r' || c = '\n') = text.dropWhile (· = '\r') := by
    induction text with
    | nil => rfl
    | cons c text ih =>
      rw [List.mem_cons, not_or] at clear
      have other : c ≠ '\n' := Ne.symm clear.1
      rw [List.dropWhile_cons, List.dropWhile_cons, ih clear.2]
      simp [other]
  rw [trim, Line.chomp, same _ (by simpa using noFeed)]

theorem trim_append_feed (noFeed : '\n' ∉ line) : trim (line ++ ['\n']) = Line.chomp line := by
  rw [← trim_of_not_mem noFeed, trim, trim, List.reverse_append, List.reverse_singleton,
    List.singleton_append, List.dropWhile_cons_of_pos (by decide)]

end Line

section Next

variable {piece : Bytes} (noFeed : 0x0A ∉ piece)
include noFeed

/-- A line with a terminator is decoded whole and delivered without it. -/
theorem next_terminated (rest : Bytes) (terminated : Bool) :
    (⟨piece ++ 0x0A :: rest, terminated, false⟩ : Reader).next =
      match Lines.decodeLine piece with
      | none => (.error .undecodable, ⟨rest, terminated, false⟩)
      | some line => (.ok (some line), ⟨rest, true, false⟩) := by
  rw [next, if_neg (by simp), if_neg (by simp)]
  simp only [cut_append_feed noFeed, decode?_append_feed noFeed, Lines.decodeLine]
  cases decoded : Text.decode? piece with
  | none => rfl
  | some line =>
    have clear : '\n' ∉ line := by
      rwa [Text.decode?_eq_some_iff.1 decoded, Text.mem_encode_lf] at noFeed
    simp [trim_append_feed clear]

theorem next_last (nonempty : piece ≠ []) (terminated : Bool) :
    (⟨piece, terminated, false⟩ : Reader).next =
      match Lines.decodeLine piece with
      | none => (.error .undecodable, ⟨[], terminated, false⟩)
      | some line => (.ok (some line), ⟨[], false, false⟩) := by
  rw [next, if_neg (by simp), if_neg (mt List.isEmpty_iff.1 nonempty)]
  simp only [cut_of_not_mem noFeed, Lines.decodeLine]
  cases decoded : Text.decode? piece with
  | none => rfl
  | some line =>
    have clear : '\n' ∉ line := by
      rwa [Text.decode?_eq_some_iff.1 decoded, Text.mem_encode_lf] at noFeed
    have unterminated : line.getLast? ≠ some '\n' := fun last => clear (List.mem_of_getLast? last)
    simp [trim_of_not_mem clear, unterminated]

end Next

inductive Call (r : Reader) : Except Fault (Option Line) → Reader → Prop where
  | finished (exhausted : r.exhausted) : Call r (.ok none) r
  | atEnd (more : ¬r.exhausted) (empty : r.unread = []) :
      Call r (.ok (if r.terminated then some [] else none)) { r with exhausted := true }
  | line {line : Line} {rest : Bytes} {terminated : Bool} (more : ¬r.exhausted)
      (shorter : rest.length < r.unread.length) :
      Call r (.ok (some line)) { r with unread := rest, terminated }
  | undecodable {rest : Bytes} (more : ¬r.exhausted) (shorter : rest.length < r.unread.length) :
      Call r (.error .undecodable) { r with unread := rest }

theorem call_next (r : Reader) : Call r r.next.1 r.next.2 := by
  by_cases exhausted : r.exhausted
  · rw [next, if_pos exhausted]
    exact .finished exhausted
  by_cases empty : r.unread.isEmpty
  · rw [next, if_neg exhausted, if_pos empty]
    exact .atEnd exhausted (List.isEmpty_iff.1 empty)
  have shorter := length_cut_lt (mt List.isEmpty_iff.2 empty)
  rw [next, if_neg exhausted, if_neg empty]
  cases decoded : Text.decode? (cut r.unread).1 with
  | none =>
    simp only [decoded]
    exact .undecodable exhausted shorter
  | some line =>
    simp only [decoded]
    exact .line exhausted shorter

theorem call_of_next {r r' : Reader} {outcome : Except Fault (Option Line)}
    (next : r.next = (outcome, r')) : Call r outcome r' := by
  have call := r.call_next
  rw [next] at call
  exact call

section Bound

def bound (r : Reader) : Nat := r.unread.length + if r.exhausted then 0 else 1

theorem bound_le (r : Reader) : r.bound ≤ r.unread.length + 1 := by
  rw [bound]
  split <;> omega

variable {r r' : Reader}

theorem Call.bound_lt {outcome : Except Fault (Option Line)} (call : Call r outcome r')
    (goes : outcome ≠ .ok none) : r'.bound < r.bound := by
  cases call with
  | finished _ => exact absurd rfl goes
  | atEnd more _ => simp [bound, more]
  | line more shorter => simpa [bound, more] using shorter
  | undecodable more shorter => simpa [bound, more] using shorter

theorem next_of_exhausted (exhausted : r.exhausted) : r.next = (.ok none, r) := by
  rw [next, if_pos exhausted]

theorem exhausted_of_bound_eq_zero (zero : r.bound = 0) : r.exhausted := by
  by_contra more
  simp [bound, more] at zero

theorem linesWithin_succ {fuel : Nat} (enough : r.bound ≤ fuel) :
    linesWithin (fuel + 1) r = linesWithin fuel r := by
  induction fuel generalizing r with
  | zero =>
    have exhausted := exhausted_of_bound_eq_zero (Nat.le_zero.1 enough)
    rw [linesWithin, linesWithin, next_of_exhausted exhausted]
  | succ fuel ih =>
    rw [linesWithin, linesWithin]
    cases next : r.next with
    | mk outcome r' =>
      have shorter (goes : outcome ≠ .ok none) : r'.bound ≤ fuel := by
        have := (call_of_next next).bound_lt goes
        omega
      match outcome with
      | .error .undecodable => simp only [ih (shorter nofun)]
      | .ok none => rfl
      | .ok (some line) => simp only [ih (shorter nofun)]

theorem linesWithin_eq_lines {fuel : Nat} (enough : r.bound ≤ fuel) :
    linesWithin fuel r = r.lines := by
  have same {fuel : Nat} (enough : r.bound ≤ fuel) :
      linesWithin fuel r = linesWithin r.bound r := by
    induction enough with
    | refl => rfl
    | step enough ih => rw [linesWithin_succ enough, ih]
  rw [lines, same enough, same r.bound_le]

/-- What is delivered is what the next call delivers and what is delivered after it. -/
theorem lines_eq (r : Reader) : r.lines =
    match r.next with
    | (.error .undecodable, r) => none :: r.lines
    | (.ok none, _) => []
    | (.ok (some line), r) => some line :: r.lines := by
  rw [lines, linesWithin]
  cases next : r.next with
  | mk outcome r' =>
    have behind (goes : outcome ≠ .ok none) : linesWithin r.unread.length r' = r'.lines := by
      have shorter := (call_of_next next).bound_lt goes
      have fits := r.bound_le
      apply linesWithin_eq_lines
      omega
    match outcome with
    | .error .undecodable => simp only [behind nofun]
    | .ok none => rfl
    | .ok (some line) => simp only [behind nofun]

end Bound

section Delivered

variable {r : Reader} {ahead : List (Option Line)}

theorem lines_of_exhausted (exhausted : r.exhausted) : r.lines = [] := by
  rw [lines_eq, next_of_exhausted exhausted]

theorem Call.exhausted_of_none {r' : Reader} (call : Call r (.ok none) r') : r'.exhausted := by
  generalize same : (Except.ok none : Except Fault (Option Line)) = outcome at call
  cases call with
  | finished exhausted => exact exhausted
  | atEnd _ _ => rfl
  | line _ _ => cases same
  | undecodable _ _ => cases same

/-- The end is the end for good. -/
theorem next_of_next_eq_none {r' : Reader} (next : r.next = (.ok none, r')) :
    r'.next = (.ok none, r') :=
  next_of_exhausted (call_of_next next).exhausted_of_none

theorem next_of_lines_eq_nil (finished : r.lines = []) :
    ∃ r', r.next = (.ok none, r') ∧ r'.lines = [] := by
  rw [lines_eq] at finished
  cases next : r.next with
  | mk outcome r' =>
    rw [next] at finished
    match outcome with
    | .error .undecodable => cases finished
    | .ok none => exact ⟨r', rfl, lines_of_exhausted (call_of_next next).exhausted_of_none⟩
    | .ok (some line) => cases finished

theorem next_of_lines_eq_undecodable (upcoming : r.lines = none :: ahead) :
    ∃ r', r.next = (.error .undecodable, r') ∧ r'.lines = ahead := by
  rw [lines_eq] at upcoming
  cases next : r.next with
  | mk outcome r' =>
    rw [next] at upcoming
    match outcome with
    | .error .undecodable => exact ⟨r', rfl, (List.cons.inj upcoming).2⟩
    | .ok none => cases upcoming
    | .ok (some line) => cases upcoming

theorem next_of_lines_eq_line {line : Line} (upcoming : r.lines = some line :: ahead) :
    ∃ r', r.next = (.ok (some line), r') ∧ r'.lines = ahead := by
  rw [lines_eq] at upcoming
  cases next : r.next with
  | mk outcome r' =>
    rw [next] at upcoming
    match outcome with
    | .error .undecodable => cases upcoming
    | .ok none => cases upcoming
    | .ok (some first) =>
      obtain ⟨same, behind⟩ := List.cons.inj upcoming
      exact ⟨r', by rw [Option.some.inj same], behind⟩

end Delivered

section Whole

theorem lines_nil (terminated : Bool) :
    (⟨[], terminated, false⟩ : Reader).lines = if terminated then [some []] else [] := by
  cases terminated <;> rfl

theorem not_mem_of_split_eq_singleton {data last : Bytes} (pieces : split 0x0A data = [last]) :
    data = last ∧ 0x0A ∉ last := by
  have whole := intercalate_split 0x0A data
  rw [pieces, List.intercalate_singleton] at whole
  refine ⟨whole.symm, ?_⟩
  apply not_mem_of_mem_split
  rw [pieces]
  exact List.mem_singleton_self last

theorem exists_of_split_eq_cons {data piece next : Bytes} {more : List Bytes}
    (pieces : split 0x0A data = piece :: next :: more) :
    ∃ rest, data = piece ++ 0x0A :: rest ∧ 0x0A ∉ piece ∧ split 0x0A rest = next :: more := by
  have clear : ∀ other ∈ piece :: next :: more, 0x0A ∉ other := by
    intro other member
    rw [← pieces] at member
    exact not_mem_of_mem_split member
  have whole := intercalate_split 0x0A data
  rw [pieces, List.intercalate_cons_cons, List.append_assoc, List.singleton_append] at whole
  refine ⟨_, whole.symm, clear piece (List.mem_cons_self ..), ?_⟩
  apply split_intercalate _ (List.cons_ne_nil _ _)
  exact fun other member => clear other (List.mem_cons_of_mem _ member)

/-- The flag stands for the lines before those that are unread. -/
theorem lines_of_split {data last : Bytes} {before : List Bytes}
    (pieces : split 0x0A data = before ++ [last]) (terminated : Bool) :
    (⟨data, terminated, false⟩ : Reader).lines = before.map Lines.decodeLine ++
      (if last.isEmpty then [] else [Lines.decodeLine last]) ++
      (if (last.isEmpty || (Lines.decodeLine last).isNone) &&
          (terminated || before.any fun piece => (Lines.decodeLine piece).isSome)
        then [some []] else []) := by
  induction before generalizing data terminated with
  | nil =>
    obtain ⟨rfl, noFeed⟩ := not_mem_of_split_eq_singleton pieces
    by_cases empty : data = []
    · subst empty
      simp [lines_nil]
    · rw [lines_eq, next_last noFeed empty]
      cases Lines.decodeLine data <;> simp [lines_nil, empty]
  | cons piece before ih =>
    obtain ⟨next, more, behind⟩ :=
      List.exists_cons_of_ne_nil (show before ++ [last] ≠ [] by simp)
    rw [List.cons_append, behind] at pieces
    obtain ⟨rest, rfl, noFeed, pieces⟩ := exists_of_split_eq_cons pieces
    rw [← behind] at pieces
    rw [lines_eq, next_terminated noFeed]
    cases decoded : Lines.decodeLine piece <;> simp [decoded, ih pieces]

/-- Reading a file from its beginning delivers its lines. -/
theorem lines_ofBytes (data : Bytes) : ({ unread := data } : Reader).lines = Lines.ofBytes data := by
  obtain absurd | ⟨before, last, pieces⟩ := List.eq_nil_or_concat' (split 0x0A data)
  · exact (split_ne_nil _ _ absurd).elim
  rw [lines_of_split pieces, Lines.ofBytes, pieces]
  simp only [List.dropLast_concat, List.getLastD_concat, Lines.endsOpen, Bool.false_or]

end Whole
end Bootscript.Reader
