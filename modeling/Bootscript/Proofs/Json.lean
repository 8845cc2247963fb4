import Bootscript.Json
import Bootscript.Proofs.Piece
import Mathlib.Data.List.Forall2

/-! Printed JSON can be told apart. Each string, list or object that is printed shows where it
ends, whatever comes behind it, so that no two are printed alike and neither begins the other. -/
namespace Bootscript.Json

/-- What is printed tells what it was printed from, and where it ends. -/
def IsDelimited {α : Type} (print : α → Text) : Prop :=
  ∀ ⦃a b : α⦄ ⦃u v : Text⦄, print a ++ u = print b ++ v → a = b ∧ u = v

def Apart (x y : Text) : Prop := ∀ ⦃u v : Text⦄, x ++ u = y ++ v → x = y

namespace IsDelimited

variable {α : Type} {print : α → Text} (delimited : IsDelimited print)
include delimited

theorem injective : Function.Injective print := by
  intro a b same
  exact (delimited (congrArg (· ++ []) same)).1

theorem apart (a b : α) : Apart (print a) (print b) :=
  fun _ _ same => congrArg print (delimited same).1

end IsDelimited

section Strings

def hexValue (digit : Char) : Nat :=
  if digit.toNat < 'a'.toNat then digit.toNat - '0'.toNat else digit.toNat - 'a'.toNat + 10

def escapes : List (Char × Char) :=
  [('"', '"'), ('\\', '\\'), ('b', '\x08'), ('f', '\x0c'), ('n', '\n'), ('r', '\r'), ('t', '\t')]

/-- The first character that a string stands for, and the rest of the text. A quote ends it. -/
def unescape? : Text → Option (Char × Text)
  | [] => none
  | '\\' :: 'u' :: '0' :: '0' :: high :: low :: rest =>
    some (Char.ofNat (16 * hexValue high + hexValue low), rest)
  | '\\' :: c :: rest => (escapes.lookup c).map (·, rest)
  | c :: rest => if c = '"' then none else some (c, rest)

theorem hexValue_hexDigit : ∀ n < 16, hexValue (hexDigit n) = n := by decide

theorem escapeChar_of_mem : ∀ pair ∈ escapes, escapeChar pair.2 = ['\\', pair.1] := by decide

theorem unescape?_of_mem {letter c : Char} (listed : (letter, c) ∈ escapes) (rest : Text) :
    unescape? ('\\' :: letter :: rest) = some (c, rest) := by
  simp only [escapes, List.mem_cons, Prod.mk.injEq, List.not_mem_nil, or_false] at listed
  rcases listed with ⟨rfl, rfl⟩ | ⟨rfl, rfl⟩ | ⟨rfl, rfl⟩ | ⟨rfl, rfl⟩ | ⟨rfl, rfl⟩ |
    ⟨rfl, rfl⟩ | ⟨rfl, rfl⟩ <;> rfl

theorem escapeChar_of_not_mem {c : Char} (other : c ∉ escapes.map Prod.snd) :
    escapeChar c = if c.toNat < 0x20 then
      ['\\', 'u', '0', '0', hexDigit (c.toNat / 16), hexDigit (c.toNat % 16)] else [c] := by
  simp only [escapes, List.map_cons, List.map_nil, List.mem_cons, List.not_mem_nil, or_false,
    not_or] at other
  simp only [escapeChar, other, ↓reduceIte]

theorem unescape?_plain {c : Char} (noQuote : c ≠ '"') (noBackslash : c ≠ '\\') (rest : Text) :
    unescape? (c :: rest) = some (c, rest) := by
  rw [unescape?.eq_def]
  split <;> simp_all

theorem unescape?_escapeChar (c : Char) (rest : Text) :
    unescape? (escapeChar c ++ rest) = some (c, rest) := by
  by_cases short : c ∈ escapes.map Prod.snd
  · obtain ⟨⟨letter, c⟩, listed, rfl⟩ := List.mem_map.1 short
    rw [escapeChar_of_mem _ listed]
    exact unescape?_of_mem listed rest
  rw [escapeChar_of_not_mem short]
  split
  · have high := hexValue_hexDigit (c.toNat / 16) (by omega)
    have low := hexValue_hexDigit (c.toNat % 16) (by omega)
    simp only [List.cons_append, List.nil_append, unescape?, high, low, Nat.div_add_mod,
      Char.ofNat_toNat]
  · have noQuote : c ≠ '"' := by rintro rfl; exact short (by decide)
    have noBackslash : c ≠ '\\' := by rintro rfl; exact short (by decide)
    exact unescape?_plain noQuote noBackslash rest

/-- A string ends at its first quote that is no escape. -/
theorem body_append_inj {a b u v : Text}
    (same : a.flatMap escapeChar ++ '"' :: u = b.flatMap escapeChar ++ '"' :: v) :
    a = b ∧ u = v := by
  induction a generalizing b with
  | nil =>
    cases b with
    | nil => exact ⟨rfl, (List.cons.inj same).2⟩
    | cons d b =>
      have read := congrArg unescape? same
      rw [List.flatMap_cons, List.append_assoc, unescape?_escapeChar] at read
      cases read
  | cons c a ih =>
    have read := congrArg unescape? same
    rw [List.flatMap_cons, List.append_assoc, unescape?_escapeChar] at read
    cases b with
    | nil => cases read
    | cons d b =>
      rw [List.flatMap_cons, List.append_assoc, unescape?_escapeChar] at read
      obtain ⟨rfl, later⟩ := Prod.mk.inj (Option.some.inj read)
      obtain ⟨rfl, ends⟩ := ih later
      exact ⟨rfl, ends⟩

theorem isDelimited_string : IsDelimited string := by
  intro a b u v same
  simp only [string, List.cons_append, List.append_assoc, List.nil_append] at same
  exact body_append_inj (List.cons.inj same).2

theorem isDelimited_bool : IsDelimited bool := by
  intro a b u v same
  cases a <;> cases b <;> simp [bool] at same ⊢ <;> exact same

end Strings

section Blocks

variable {opening closing : Char} {level : Nat} {u v : Text}

def following (closing : Char) (level : Nat) (items : List Text) : Text :=
  items.flatMap (fun item => ',' :: newline (level + 1) ++ item) ++ newline level ++ [closing]

theorem block_cons (opening : Char) (item : Text) (items : List Text) :
    block opening closing level (item :: items) =
      opening :: newline (level + 1) ++ item ++ following closing level items := by
  simp only [block, List.map_cons, Text.intercalate_cons, List.flatMap_map, following]
  simp

/-- A comma goes on, and a new line ends the block. -/
theorem following_append_inj {items items' : List Text}
    (apart : ∀ pair ∈ items.zip items', Apart pair.1 pair.2)
    (same : following closing level items ++ u = following closing level items' ++ v) :
    items = items' ∧ u = v := by
  induction items generalizing items' with
  | nil =>
    cases items' with
    | nil => exact ⟨rfl, List.append_cancel_left same⟩
    | cons => simp [following, newline] at same
  | cons item items ih =>
    cases items' with
    | nil => simp [following, newline] at same
    | cons item' items' =>
      obtain ⟨first, others⟩ := List.forall_mem_cons.1 apart
      have split (item : Text) (items : List Text) (rest : Text) :
          following closing level (item :: items) ++ rest =
            (',' :: newline (level + 1)) ++ (item ++ (following closing level items ++ rest)) := by
        simp [following]
      rw [split, split, List.append_cancel_left_eq] at same
      obtain rfl : item = item' := first same
      obtain ⟨rfl, ends⟩ := ih others (List.append_cancel_left same)
      exact ⟨rfl, ends⟩

theorem block_append_inj (other : closing ≠ '\n') {items items' : List Text}
    (apart : ∀ pair ∈ items.zip items', Apart pair.1 pair.2)
    (same : block opening closing level items ++ u = block opening closing level items' ++ v) :
    items = items' ∧ u = v := by
  cases items with
  | nil =>
    cases items' with
    | nil => exact ⟨rfl, List.append_cancel_left same⟩
    | cons =>
      rw [block_cons] at same
      simp [block, newline, other] at same
  | cons item items =>
    cases items' with
    | nil =>
      rw [block_cons] at same
      simp [block, newline, other.symm] at same
    | cons item' items' =>
      obtain ⟨first, others⟩ := List.forall_mem_cons.1 apart
      simp only [block_cons, List.append_assoc, List.append_cancel_left_eq] at same
      obtain rfl : item = item' := first same
      obtain ⟨rfl, ends⟩ := following_append_inj others (List.append_cancel_left same)
      exact ⟨rfl, ends⟩

theorem IsDelimited.array {α : Type} {print : α → Text} (delimited : IsDelimited print)
    (level : Nat) : IsDelimited fun items : List α => array level (items.map print) := by
  intro a b u v same
  have apart : ∀ pair ∈ (a.map print).zip (b.map print), Apart pair.1 pair.2 := by
    intro pair member
    obtain ⟨x, _, first⟩ := List.mem_map.1 (List.of_mem_zip member).1
    obtain ⟨y, _, second⟩ := List.mem_map.1 (List.of_mem_zip member).2
    rw [← first, ← second]
    exact delimited.apart x y
  obtain ⟨items, ends⟩ := block_append_inj (by decide) apart same
  exact ⟨List.map_injective_iff.2 delimited.injective items, ends⟩

def printField (field : Text × Text) : Text := string field.1 ++ [':', ' '] ++ field.2

/-- The key of a field is told first. -/
theorem key_of_printField_append {field field' : Text × Text}
    (same : printField field ++ u = printField field' ++ v) :
    field.1 = field'.1 ∧ field.2 ++ u = field'.2 ++ v := by
  simp only [printField, List.append_assoc] at same
  obtain ⟨key, rest⟩ := isDelimited_string same
  exact ⟨key, List.append_cancel_left rest⟩

theorem printField_injective : Function.Injective printField := by
  intro field field' same
  obtain ⟨key, value⟩ := key_of_printField_append (congrArg (· ++ []) same)
  exact Prod.ext key (List.append_cancel_right value)

/-- Objects tell their fields if the values that stand under one key can be told apart. -/
theorem object_append_inj {fields fields' : List (Text × Text)}
    (apart : List.Forall₂ (fun field field' => field.1 = field'.1 → Apart field.2 field'.2)
      fields fields')
    (same : object level fields ++ u = object level fields' ++ v) : fields = fields' ∧ u = v := by
  have items : ∀ pair ∈ (fields.map printField).zip (fields'.map printField),
      Apart pair.1 pair.2 := by
    rw [List.zip_map]
    intro pair member u v same
    obtain ⟨⟨field, field'⟩, origin, rfl⟩ := List.mem_map.1 member
    obtain ⟨key, value⟩ := key_of_printField_append same
    have values := (List.forall₂_iff_zip.1 apart).2 origin
    exact congrArg printField (Prod.ext key (values key value))
  obtain ⟨printed, ends⟩ := block_append_inj (by decide) items same
  exact ⟨List.map_injective_iff.2 printField_injective printed, ends⟩

end Blocks

end Bootscript.Json
