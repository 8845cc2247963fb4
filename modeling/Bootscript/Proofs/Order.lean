import Bootscript.Proofs.Utf8
import Mathlib.Data.List.Lex

/-! The order of names. Comparing sequences by their first difference puts them in a line if
their elements are in one, so that sorting has only one result. Text is in the order of its
code points, which is that of its bytes in a file. -/
namespace Bootscript

structure IsLinear {α : Type} (le : α → α → Bool) : Prop where
  total : ∀ a b, le a b || le b a
  trans : ∀ a b c, le a b → le b c → le a c
  antisymm : ∀ a b, le a b → le b a → a = b

namespace IsLinear

variable {α : Type} {le : α → α → Bool} (linear : IsLinear le)
include linear

theorem lexicographic [DecidableEq α] : IsLinear (lexicographic le) where
  total as bs := by
    induction as generalizing bs with
    | nil => rfl
    | cons a as ih =>
      cases bs with
      | nil => rfl
      | cons b bs =>
        rw [Bootscript.lexicographic, Bootscript.lexicographic]
        by_cases same : a = b
        · rw [if_pos same, if_pos same.symm]
          exact ih bs
        · rw [if_neg same, if_neg (Ne.symm same)]
          exact linear.total a b
  trans as bs cs := by
    induction as generalizing bs cs with
    | nil => exact fun _ _ => rfl
    | cons a as ih =>
      intro first second
      cases bs with
      | nil => cases first
      | cons b bs =>
        cases cs with
        | nil => cases second
        | cons c cs =>
          rw [Bootscript.lexicographic] at first second ⊢
          by_cases same : a = b
          · subst same
            by_cases next : a = c
            · rw [if_pos rfl] at first
              rw [if_pos next] at second ⊢
              exact ih bs cs first second
            · rw [if_neg next] at second ⊢
              exact second
          · rw [if_neg same] at first
            by_cases next : b = c
            · rw [if_neg (next ▸ same)]
              exact next ▸ first
            · rw [if_neg next] at second
              have other : a ≠ c := by
                rintro rfl
                exact same (linear.antisymm _ _ first second)
              rw [if_neg other]
              exact linear.trans _ _ _ first second
  antisymm as bs := by
    induction as generalizing bs with
    | nil =>
      cases bs with
      | nil => exact fun _ _ => rfl
      | cons b bs => exact fun _ second => by cases second
    | cons a as ih =>
      cases bs with
      | nil => exact fun first _ => by cases first
      | cons b bs =>
        intro first second
        rw [Bootscript.lexicographic] at first second
        by_cases same : a = b
        · rw [if_pos same] at first
          rw [if_pos same.symm] at second
          rw [same, ih bs first second]
        · rw [if_neg same] at first
          rw [if_neg (Ne.symm same)] at second
          exact absurd (linear.antisymm _ _ first second) same

/-- A sorted list is known by what is in it. -/
theorem eq_of_perm {l l' : List α} (sorted : l.Pairwise fun a b => le a b)
    (sorted' : l'.Pairwise fun a b => le a b) (perm : l.Perm l') : l = l' :=
  perm.eq_of_pairwise (fun a b _ _ => linear.antisymm a b) sorted sorted'

end IsLinear

theorem Bytes.isLinear : IsLinear Bytes.le :=
  IsLinear.lexicographic
    { total := fun a b => by simpa using UInt8.le_total a b
      trans := fun a b c first second => by
        rw [decide_eq_true_iff] at first second ⊢
        exact UInt8.le_trans first second
      antisymm := fun a b first second =>
        UInt8.le_antisymm (of_decide_eq_true first) (of_decide_eq_true second) }

namespace Text

theorem isLinear : IsLinear Text.le :=
  IsLinear.lexicographic
    { total := fun a b => by simpa using UInt32.le_total a.val b.val
      trans := fun a b c first second => by
        rw [decide_eq_true_iff] at first second ⊢
        exact UInt32.le_trans first second
      antisymm := fun a b first second =>
        Char.ext (UInt32.le_antisymm (of_decide_eq_true first) (of_decide_eq_true second)) }

end Text

namespace Utf8

theorem toNat_lt (c : Char) : c.val.toNat < 0x110000 := by
  have valid : c.toNat < 0xD800 ∨ 0xDFFF < c.toNat ∧ c.toNat < 0x110000 := c.valid
  change c.toNat < _
  omega

structure IsDigits (n p q r s : Nat) : Prop where
  first : n / 262144 % 8 = p
  second : n / 4096 % 64 = q
  third : n / 64 % 64 = r
  fourth : n % 64 = s
  whole : n = 262144 * p + 4096 * q + 64 * r + s

theorem exists_isDigits {n : Nat} (top : n < 0x110000) : ∃ p q r s, IsDigits n p q r s :=
  ⟨_, _, _, _, rfl, rfl, rfl, rfl, by omega⟩

theorem ofNat_cons_lt_iff {n m : Nat} (hn : n < 256) (hm : m < 256) (x y : Bytes) :
    UInt8.ofNat n :: x < UInt8.ofNat m :: y ↔ n < m ∨ n = m ∧ x < y := by
  rw [List.cons_lt_cons_iff, UInt8.lt_iff_toNat_lt, ← UInt8.toNat_inj,
    UInt8.toNat_ofNat_of_lt' hn, UInt8.toNat_ofNat_of_lt' hm]

/-- Characters of more bytes have a higher first byte, and those of as many are told apart
by the first digit that differs. -/
theorem encodeChar_lt {c d : Char} (lt : c.val.toNat < d.val.toNat) (x y : Bytes) :
    String.utf8EncodeChar c ++ x < String.utf8EncodeChar d ++ y := by
  obtain ⟨p, q, r, s, first, second, third, fourth, whole⟩ := exists_isDigits (toNat_lt c)
  obtain ⟨p', q', r', s', first', second', third', fourth', whole'⟩ := exists_isDigits (toNat_lt d)
  unfold String.utf8EncodeChar
  simp only [first, second, third, fourth, first', second', third', fourth']
  have small : p < 8 ∧ q < 64 ∧ r < 64 ∧ s < 64 := by omega
  have small' : p' < 8 ∧ q' < 64 ∧ r' < 64 ∧ s' < 64 := by omega
  clear first second third fourth first' second' third' fourth'
  repeat' split
  all_goals
    simp (disch := omega) only [List.cons_append, List.nil_append, ofNat_cons_lt_iff]
    omega

end Utf8

/-- Text that comes first has bytes that come first. -/
theorem Text.encode_lt {a b : Text} (le : Text.le a b) (other : a ≠ b) : a.encode < b.encode := by
  induction a generalizing b with
  | nil =>
    cases b with
    | nil => exact absurd rfl other
    | cons d b =>
      have some := d.utf8Size_pos
      rw [← String.length_utf8EncodeChar, List.length_pos_iff] at some
      obtain ⟨first, rest, bytes⟩ := List.exists_cons_of_ne_nil some
      rw [encode_cons, bytes, encode_nil]
      exact .nil
  | cons c a ih =>
    cases b with
    | nil => cases le
    | cons d b =>
      rw [Text.le, lexicographic] at le
      rw [encode_cons, encode_cons]
      by_cases same : c = d
      · subst same
        rw [if_pos rfl] at le
        exact .append_left _ (ih le fun rest => other (by rw [rest])) _
      · rw [if_neg same, decide_eq_true_iff] at le
        apply Utf8.encodeChar_lt
        exact Nat.lt_of_le_of_ne le fun point => same (Char.ext (UInt32.toNat_inj.1 point))

end Bootscript
