import Bootscript.Lines
import Bootscript.Proofs.Utf8
import Mathlib.Data.List.DropRight
import Mathlib.Data.List.ReduceOption

/-! The lines of a file are the pieces of its text between line feeds, each without the
carriage returns at its end. Lines that hold no line feed and end in no carriage return
are what they were after they are joined and read again. -/
namespace Bootscript

section Split

variable {α : Type} [DecidableEq α]

theorem splitOnto_eq_splitOnPPrepend (separator : α) (piece items : List α) :
    splitOnto separator piece items = items.splitOnPPrepend (· == separator) piece := by
  induction items generalizing piece with
  | nil => rfl
  | cons a items ih =>
    by_cases same : a = separator
    · simp [splitOnto, List.splitOnPPrepend_cons_eq_if, same, ih]
    · simp [splitOnto, List.splitOnPPrepend_cons_eq_if, same, ih]

theorem split_eq_splitOn (separator : α) (items : List α) :
    split separator items = items.splitOn separator := by
  rw [split, splitOnto_eq_splitOnPPrepend, List.splitOn_eq_splitOnP,
    List.splitOnP_eq_splitOnPPrepend]

theorem split_ne_nil (separator : α) (items : List α) : split separator items ≠ [] := by
  rw [split_eq_splitOn]
  exact List.splitOn_ne_nil separator items

theorem intercalate_split (separator : α) (items : List α) :
    [separator].intercalate (split separator items) = items := by
  rw [split_eq_splitOn, List.intercalate_splitOn]

theorem split_intercalate {separator : α} {pieces : List (List α)}
    (clear : ∀ piece ∈ pieces, separator ∉ piece) (some : pieces ≠ []) :
    split separator ([separator].intercalate pieces) = pieces := by
  rw [split_eq_splitOn, List.splitOn_intercalate separator clear some]

theorem takeWhile_piece {separator : α} {piece : List α} (clear : separator ∉ piece)
    (rest : List α) : (piece ++ separator :: rest).takeWhile (· ≠ separator) = piece := by
  have others : ∀ a ∈ piece, decide (a ≠ separator) := fun a member =>
    decide_eq_true (ne_of_mem_of_not_mem member clear)
  rw [List.takeWhile_append_of_pos others, List.takeWhile_cons_of_neg (by simp), List.append_nil]

theorem not_mem_of_mem_split {separator : α} {items piece : List α}
    (member : piece ∈ split separator items) : separator ∉ piece := by
  rw [split_eq_splitOn] at member
  induction items generalizing piece with
  | nil => simp at member; simp [member]
  | cons a items ih =>
    rw [List.splitOn_cons_eq_if_modifyHead] at member
    split at member
    · rcases List.mem_cons.1 member with rfl | member
      · exact List.not_mem_nil
      · exact ih member
    · rename_i other
      cases rest : items.splitOn separator with
      | nil => exact absurd rest (List.splitOn_ne_nil separator items)
      | cons first rest =>
        rw [rest] at member ih
        rcases List.mem_cons.1 member with rfl | member
        · have clear := ih (List.mem_cons_self ..)
          rw [List.mem_cons, not_or]
          exact ⟨fun same => other (by simp [same]), clear⟩
        · exact ih (List.mem_cons_of_mem _ member)

omit [DecidableEq α] in
theorem mem_intercalate {separator a : α} {pieces : List (List α)}
    (member : a ∈ [separator].intercalate pieces) : a = separator ∨ ∃ piece ∈ pieces, a ∈ piece := by
  induction pieces with
  | nil => cases member
  | cons piece pieces ih =>
    cases pieces with
    | nil => exact .inr ⟨piece, List.mem_cons_self .., by simpa using member⟩
    | cons next rest =>
      rw [List.intercalate_cons_cons, List.append_assoc, List.mem_append] at member
      rcases member with first | member
      · exact .inr ⟨piece, List.mem_cons_self .., first⟩
      rcases List.mem_append.1 member with middle | member
      · exact .inl (List.mem_singleton.1 middle)
      rcases ih member with same | ⟨later, origin, inside⟩
      · exact .inl same
      · exact .inr ⟨later, List.mem_cons_of_mem _ origin, inside⟩

omit [DecidableEq α] in
theorem exists_intercalate_concat (separator : List α) (init : List (List α))
    (last : List α) : ∃ front, separator.intercalate (init ++ [last]) = front ++ last := by
  induction init with
  | nil => exact ⟨[], by simp⟩
  | cons piece init ih =>
    obtain ⟨front, eq⟩ := ih
    obtain ⟨next, rest, split⟩ := List.exists_cons_of_ne_nil
      (show init ++ [last] ≠ [] by simp)
    refine ⟨piece ++ separator ++ front, ?_⟩
    rw [split] at eq
    rw [List.cons_append, split, List.intercalate_cons_cons, eq]
    simp only [List.append_assoc]

end Split

namespace Text

theorem encode_join (lines : List Line) :
    encode (Lines.join lines) = [0x0A].intercalate (lines.map encode) := by
  match lines with
  | [] => rfl
  | [line] => rw [Lines.join, List.intercalate_singleton, List.map_singleton,
      List.intercalate_singleton]
  | line :: next :: rest =>
    have tail := encode_join (next :: rest)
    rw [Lines.join] at tail ⊢
    rw [List.intercalate_cons_cons, encode_append, encode_append, tail]
    simp only [List.map_cons, List.intercalate_cons_cons]
    rfl

/-- A text is cut into lines before or after it is encoded. -/
theorem split_encode (text : Text) :
    split 0x0A (encode text) = (split '\n' text).map encode := by
  conv => lhs; rw [← intercalate_split '\n' text]
  rw [← Lines.join, encode_join]
  apply split_intercalate
  · simp only [List.mem_map, forall_exists_index, and_imp, forall_apply_eq_imp_iff₂]
    intro line member
    rw [mem_encode_lf]
    exact not_mem_of_mem_split member
  · simpa using split_ne_nil '\n' text

end Text

structure Line.IsPlain (line : Line) : Prop where
  noFeed : '\n' ∉ line
  noReturn : line.getLast? ≠ some '\r'

namespace Line

theorem chomp_eq_rdropWhile (line : Line) : chomp line = line.rdropWhile (· = '\r') := rfl

theorem chomp_eq_self {line : Line} (noReturn : line.getLast? ≠ some '\r') :
    chomp line = line := by
  rw [chomp_eq_rdropWhile, List.rdropWhile_eq_self_iff]
  intro nonempty last
  rw [List.getLast?_eq_some_getLast nonempty] at noReturn
  exact noReturn (congrArg some (by simpa using last))

theorem isPlain_chomp {line : Line} (noFeed : '\n' ∉ line) : (chomp line).IsPlain where
  noFeed member := noFeed ((List.rdropWhile_prefix _ line).mem member)
  noReturn last := by
    have nonempty : line.rdropWhile (· = '\r') ≠ [] := by
      rintro nothing
      rw [chomp_eq_rdropWhile, nothing] at last
      cases last
    have final := List.rdropWhile_last_not (· = '\r') line nonempty
    rw [chomp_eq_rdropWhile, List.getLast?_eq_some_getLast nonempty] at last
    exact final (by simpa using last)

end Line

namespace Lines

def ofText (text : Text) : List Line := (split '\n' text).map Line.chomp

theorem exists_join_cons (line : Line) (lines : List Line) :
    ∃ rest, join (line :: lines) = line ++ rest := by
  cases lines with
  | nil => exact ⟨[], by rw [join, List.intercalate_singleton, List.append_nil]⟩
  | cons next lines =>
    exact ⟨_, by rw [join, List.intercalate_cons_cons, List.append_assoc]⟩

theorem join_append_cons (lines : List Line) (next : Line) (rest : List Line) :
    join (lines ++ next :: rest) = lines.flatMap (· ++ ['\n']) ++ join (next :: rest) := by
  induction lines with
  | nil => rfl
  | cons line lines ih =>
    obtain ⟨second, others, split⟩ :=
      List.exists_cons_of_ne_nil (show lines ++ next :: rest ≠ [] by simp)
    rw [split] at ih
    rw [List.cons_append, split, join, List.intercalate_cons_cons, ← join, ih]
    simp

theorem decodeLine_encode (line : Line) : decodeLine line.encode = some (Line.chomp line) := by
  rw [decodeLine, Text.decode?_encode, Option.map_some]

/-- A file of text has the lines of its text, but the empty file has none. -/
theorem ofBytes_encode (text : Text) :
    ofBytes text.encode = if text = [] then [] else (ofText text).map some := by
  by_cases empty : text = []
  · subst empty; rfl
  rw [if_neg empty, ofText, List.map_map, ofBytes, Text.split_encode]
  obtain absurd | ⟨init, last, pieces⟩ := List.eq_nil_or_concat' (split '\n' text)
  · exact (split_ne_nil _ _ absurd).elim
  have decoded : (decodeLine ∘ Text.encode) = some ∘ Line.chomp := funext decodeLine_encode
  rw [pieces]
  simp only [List.map_append, List.map_singleton, List.dropLast_concat, List.getLastD_concat,
    List.map_map, decoded, endsOpen, decodeLine_encode]
  cases last with
  | nil =>
    have opened : init ≠ [] := by
      rintro rfl
      have := intercalate_split '\n' text
      rw [pieces] at this
      exact empty this.symm
    obtain ⟨first, init, rfl⟩ := List.exists_cons_of_ne_nil opened
    simp [decodeLine_encode, Line.chomp]
  | cons c last =>
    simp

def delivered (text : Text) : List Line := if text = [] then [] else ofText text

theorem ofBytes_encode_eq_delivered (text : Text) :
    ofBytes text.encode = (delivered text).map some := by
  rw [ofBytes_encode, delivered]
  split <;> rfl

theorem noReturn_of_mem_split {text : Text} {piece : Line} (inside : ¬['\r', '\n'] <:+: text)
    (last : ¬['\r'] <:+ text) (member : piece ∈ split '\n' text) : piece.getLast? ≠ some '\r' := by
  intro ends
  obtain ⟨before, after, parts⟩ := List.append_of_mem member
  obtain ⟨front, rfl⟩ := List.getLast?_eq_some_iff.1 ends
  have whole : join (before ++ (front ++ ['\r']) :: after) = text := by
    rw [← parts]
    exact intercalate_split '\n' text
  rw [join_append_cons] at whole
  cases after with
  | nil =>
    apply last
    refine ⟨before.flatMap (· ++ ['\n']) ++ front, ?_⟩
    rw [← whole, join, List.intercalate_singleton, List.append_assoc]
  | cons next rest =>
    apply inside
    refine ⟨before.flatMap (· ++ ['\n']) ++ front, join (next :: rest), ?_⟩
    rw [← whole, join, join, List.intercalate_cons_cons]
    simp only [List.append_assoc, List.cons_append, List.nil_append]

/-- A text without carriage returns at the ends of its lines is made of the lines that are
read of it. -/
theorem join_delivered {text : Text} (inside : ¬['\r', '\n'] <:+: text) (last : ¬['\r'] <:+ text) :
    join (delivered text) = text := by
  rw [delivered]
  split
  · rename_i empty
    rw [empty]
    rfl
  · have whole : ofText text = split '\n' text := by
      rw [ofText]
      conv => rhs; rw [← List.map_id (split '\n' text)]
      apply List.map_congr_left
      intro piece member
      exact Line.chomp_eq_self (noReturn_of_mem_split inside last member)
    rw [whole]
    exact intercalate_split '\n' text

/-- Plain lines are read back from a file that holds them. -/
theorem ofBytes_encode_join {lines : List Line} (plain : ∀ line ∈ lines, line.IsPlain)
    (nonempty : join lines ≠ []) : ofBytes (Text.encode (join lines)) = lines.map some := by
  have some : lines ≠ [] := by rintro rfl; exact nonempty rfl
  rw [ofBytes_encode, if_neg nonempty, ofText, join,
    split_intercalate (fun line member => (plain line member).noFeed) some]
  congr 1
  rw [List.map_congr_left fun line member => Line.chomp_eq_self (plain line member).noReturn,
    List.map_id']

theorem isPlain_of_decodeLine {piece : Bytes} {line : Line} (noFeed : 0x0A ∉ piece)
    (decoded : decodeLine piece = some line) : line.IsPlain := by
  obtain ⟨text, whole, rfl⟩ := Option.map_eq_some_iff.1 decoded
  rw [Text.decode?_eq_some_iff.1 whole, Text.mem_encode_lf] at noFeed
  exact Line.isPlain_chomp noFeed

theorem isPlain_of_mem_ofBytes {data : Bytes} {line : Line} (member : some line ∈ ofBytes data) :
    line.IsPlain := by
  have noFeed {piece : Bytes} (piece_mem : piece ∈ split 0x0A data) : 0x0A ∉ piece :=
    not_mem_of_mem_split piece_mem
  simp only [ofBytes, List.mem_append] at member
  rcases member with (member | member) | member
  · obtain ⟨piece, origin, decoded⟩ := List.mem_map.1 member
    exact isPlain_of_decodeLine (noFeed (List.dropLast_subset _ origin)) decoded
  · split at member
    · cases member
    · rw [List.getLastD_eq_getLast?, List.getLast?_eq_some_getLast (split_ne_nil _ _)] at member
      exact isPlain_of_decodeLine (noFeed (List.getLast_mem (split_ne_nil _ _)))
        (List.mem_singleton.1 member).symm
  · split at member
    · obtain rfl := Option.some.inj (List.mem_singleton.1 member)
      exact ⟨List.not_mem_nil, by simp⟩
    · cases member

/-- The lines of a file as line feeds part them, `none` where one is not UTF-8. -/
def physical (data : Bytes) : List (Option Line) := (split 0x0A data).map decodeLine

def readable (data : Bytes) : List Line := ((physical data).takeWhile Option.isSome).reduceOption

theorem decode?_eq_none_iff {data : Bytes} :
    Text.decode? data = none ↔ none ∈ physical data := by
  constructor
  · intro undecodable
    by_contra whole
    have pieces : (split 0x0A data).map (fun piece => Text.encode ((Text.decode? piece).getD [])) =
        split 0x0A data := by
      conv => rhs; rw [← List.map_id (split 0x0A data)]
      apply List.map_congr_left
      intro piece member
      cases decoded : Text.decode? piece with
      | none => exact (whole (List.mem_map.2 ⟨piece, member, by simp [decodeLine, decoded]⟩)).elim
      | some line => exact (Text.decode?_eq_some_iff.1 decoded).symm
    have text : data =
        Text.encode (join ((split 0x0A data).map fun piece => (Text.decode? piece).getD [])) := by
      rw [Text.encode_join, List.map_map]
      exact (intercalate_split 0x0A data).symm.trans (congrArg _ pieces.symm)
    rw [text, Text.decode?_encode] at undecodable
    cases undecodable
  · intro member
    cases decoded : Text.decode? data with
    | none => rfl
    | some text =>
      rw [Text.decode?_eq_some_iff.1 decoded, physical, Text.split_encode] at member
      simp [decodeLine_encode] at member

theorem exists_of_none_mem {lines : List (Option Line)} (undecodable : none ∈ lines) :
    ∃ after, ∀ rest rest', lines ++ rest' =
      (((lines ++ rest).takeWhile Option.isSome).reduceOption).map some ++
        none :: (after ++ rest') := by
  induction lines with
  | nil => cases undecodable
  | cons line lines ih =>
    cases line with
    | none => exact ⟨lines, by simp⟩
    | some line =>
      obtain ⟨after, eq⟩ := ih (by simpa using undecodable)
      refine ⟨after, fun rest rest' => ?_⟩
      rw [List.cons_append, List.cons_append, List.takeWhile_cons_of_pos rfl,
        List.reduceOption_cons_of_some, List.map_cons, List.cons_append, ← eq]

/-- Reading meets the lines before the first that is not UTF-8, and then that one. -/
theorem ofBytes_eq_readable {data : Bytes} (undecodable : Text.decode? data = none) :
    ∃ after, ofBytes data = (readable data).map some ++ none :: after := by
  rw [decode?_eq_none_iff] at undecodable
  obtain absurd | ⟨init, last, pieces⟩ := List.eq_nil_or_concat' (split 0x0A data)
  · exact (split_ne_nil _ _ absurd).elim
  -- An empty last piece is the only one that reading may leave out.
  obtain ⟨shared, rest, rest', member, parted, read⟩ : ∃ shared rest rest', none ∈ shared ∧
      physical data = shared ++ rest ∧ ofBytes data = shared ++ rest' := by
    simp only [physical, ofBytes, pieces, List.map_append, List.map_singleton, List.mem_append,
      List.mem_singleton, List.dropLast_concat, List.getLastD_concat] at undecodable ⊢
    rcases undecodable with terminated | unterminated
    · exact ⟨_, _, _, terminated, rfl, List.append_assoc ..⟩
    · have nonempty : last.isEmpty = false := by
        cases last
        · cases unterminated
        · rfl
      simp only [nonempty]
      exact ⟨_, [], _, by simp [unterminated], (List.append_nil _).symm, rfl⟩
  obtain ⟨after, eq⟩ := exists_of_none_mem member
  exact ⟨after ++ rest', by rw [readable, parted, read, ← eq rest rest']⟩

end Lines
end Bootscript
