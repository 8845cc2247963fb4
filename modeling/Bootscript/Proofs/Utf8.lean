import Bootscript.Text

/-! UTF-8. Decoding undoes encoding, and strict decoding accepts nothing but encoded
text. A line feed is a byte of its own, so text can be cut into lines on either side. -/
namespace Bootscript
namespace Utf8

def decodeFrom (pending : Option Partial) (data : Bytes) : List (Option Char) :=
  (data.foldl Decoder.feed ⟨pending, #[]⟩).finish

theorem feed_output (pending : Option Partial) (output : Array (Option Char)) (b : UInt8) :
    Decoder.feed ⟨pending, output⟩ b =
      ⟨(Decoder.feed ⟨pending, #[]⟩ b).pending,
        output ++ (Decoder.feed ⟨pending, #[]⟩ b).output⟩ := by
  have start (out : Array (Option Char)) : Decoder.start ⟨none, out⟩ b =
      ⟨(Decoder.start ⟨none, #[]⟩ b).pending, out ++ (Decoder.start ⟨none, #[]⟩ b).output⟩ := by
    unfold Decoder.start
    cases lead b <;> simp
  cases pending with
  | none => exact start output
  | some char =>
    simp only [Decoder.feed]
    split
    · cases char.missing <;> simp
    · rw [start (output.push none), start (#[].push none)]
      simp [← Array.append_assoc]

/-- Output is only ever added to. -/
theorem finish_foldl_feed (data : Bytes) (pending : Option Partial)
    (output : Array (Option Char)) :
    (data.foldl Decoder.feed ⟨pending, output⟩).finish =
      output.toList ++ decodeFrom pending data := by
  induction data generalizing pending output with
  | nil => cases pending <;> simp [decodeFrom, Decoder.finish]
  | cons b data ih =>
    simp only [decodeFrom, List.foldl_cons]
    rw [feed_output pending output, ih, feed_output pending #[], ih]
    simp [decodeFrom]

theorem decodeFrom_pending_nil (char : Partial) : decodeFrom (some char) [] = [none] := rfl

theorem decodeFrom_whole {b : UInt8} {char : Char} (whole : lead b = .whole char)
    (data : Bytes) : decodeFrom none (b :: data) = some char :: decodeFrom none data := by
  rw [decodeFrom, List.foldl_cons]
  simp [Decoder.feed, Decoder.start, whole, finish_foldl_feed]

theorem decodeFrom_opens {b : UInt8} {char : Partial} (opens : lead b = .opens char)
    (data : Bytes) : decodeFrom none (b :: data) = decodeFrom (some char) data := by
  rw [decodeFrom, List.foldl_cons]
  simp [Decoder.feed, Decoder.start, opens, finish_foldl_feed]

theorem decodeFrom_illFormed {b : UInt8} (illFormed : lead b = .illFormed) (data : Bytes) :
    decodeFrom none (b :: data) = none :: decodeFrom none data := by
  rw [decodeFrom, List.foldl_cons]
  simp [Decoder.feed, Decoder.start, illFormed, finish_foldl_feed]

def decodeRest (missing value : Nat) (data : Bytes) : List (Option Char) :=
  match missing with
  | 0 => some (Char.ofNat value) :: decodeFrom none data
  | missing + 1 => decodeFrom (some ⟨missing, value, 0x80, 0xBF⟩) data

theorem decodeFrom_continue (missing value : Nat) (low high b : UInt8) (data : Bytes)
    (inside : low ≤ b ∧ b ≤ high) :
    decodeFrom (some ⟨missing, value, low, high⟩) (b :: data) =
      decodeRest missing (value * 64 + (b.toNat - 0x80)) data := by
  rw [decodeFrom, List.foldl_cons, Decoder.feed]
  cases missing <;> simp [inside, finish_foldl_feed, decodeRest]

theorem decodeFrom_break (char : Partial) (b : UInt8) (data : Bytes)
    (outside : ¬(char.low ≤ b ∧ b ≤ char.high)) :
    none ∈ decodeFrom (some char) (b :: data) := by
  rw [decodeFrom, List.foldl_cons, Decoder.feed]
  simp only [if_neg outside]
  rw [show Decoder.start ⟨none, (#[] : Array (Option Char)).push none⟩ b =
    Decoder.feed ⟨none, (#[] : Array (Option Char)).push none⟩ b from rfl, feed_output]
  simp [finish_foldl_feed]

theorem lead_whole (b : UInt8) (high : b.toNat < 0x80) :
    lead b = .whole (Char.ofNat b.toNat) := by
  have : b < 0x80 := high
  simp [lead, this]

theorem lead_two (b : UInt8) (low : 0xC2 ≤ b.toNat) (high : b.toNat < 0xE0) :
    lead b = .opens ⟨0, b.toNat - 0xC0, 0x80, 0xBF⟩ := by
  simp only [lead, UInt8.lt_iff_toNat_lt]
  rw [if_neg (by simp; omega), if_neg (by simp; omega), if_pos (by simp; omega)]

theorem lead_three (b : UInt8) (low : 0xE0 ≤ b.toNat) (high : b.toNat < 0xF0) :
    lead b = .opens ⟨1, b.toNat - 0xE0, if b.toNat = 0xE0 then 0xA0 else 0x80,
      if b.toNat = 0xED then 0x9F else 0xBF⟩ := by
  simp only [lead, UInt8.lt_iff_toNat_lt]
  rw [if_neg (by simp; omega), if_neg (by simp; omega), if_neg (by simp; omega),
    if_pos (by simp; omega)]
  simp only [← UInt8.toNat_inj]
  rfl

theorem lead_four (b : UInt8) (low : 0xF0 ≤ b.toNat) (high : b.toNat < 0xF5) :
    lead b = .opens ⟨2, b.toNat - 0xF0, if b.toNat = 0xF0 then 0x90 else 0x80,
      if b.toNat = 0xF4 then 0x8F else 0xBF⟩ := by
  simp only [lead, UInt8.lt_iff_toNat_lt]
  rw [if_neg (by simp; omega), if_neg (by simp; omega), if_neg (by simp; omega),
    if_neg (by simp; omega), if_pos (by simp; omega)]
  simp only [← UInt8.toNat_inj]
  rfl

theorem lead_illFormed (b : UInt8)
    (outside : 0x80 ≤ b.toNat ∧ b.toNat < 0xC2 ∨ 0xF5 ≤ b.toNat) : lead b = .illFormed := by
  simp only [lead, UInt8.lt_iff_toNat_lt]
  rcases outside with ⟨low, high⟩ | low
  · rw [if_neg (by simp; omega), if_pos (by simp; omega)]
  · rw [if_neg (by simp; omega), if_neg (by simp; omega), if_neg (by simp; omega),
      if_neg (by simp; omega), if_neg (by simp; omega)]

theorem ofNat_eq_of_toNat {c : Char} {n : Nat} (h : n = c.toNat) : Char.ofNat n = c := by
  rw [h, Char.ofNat_toNat]

/-- An encoded character is decoded as itself, whatever follows. -/
theorem decodeFrom_encodeChar (c : Char) (data : Bytes) :
    decodeFrom none (String.utf8EncodeChar c ++ data) = some c :: decodeFrom none data := by
  have valid : c.toNat < 0xD800 ∨ 0xDFFF < c.toNat ∧ c.toNat < 0x110000 := c.valid
  unfold String.utf8EncodeChar
  rw [show c.val.toNat = c.toNat from rfl]
  simp only
  split
  · rw [List.singleton_append, decodeFrom_whole (lead_whole _ (by simp; omega))]
    simp only [List.cons.injEq, Option.some.injEq, and_true]
    exact ofNat_eq_of_toNat (by simp; omega)
  split
  · simp only [List.cons_append, List.nil_append]
    rw [decodeFrom_opens (lead_two _ (by simp; omega) (by simp; omega)),
      decodeFrom_continue _ _ _ _ _ _ (by simp [UInt8.le_iff_toNat_le]; omega)]
    simp only [decodeRest, List.cons.injEq, Option.some.injEq, and_true]
    exact ofNat_eq_of_toNat (by simp; omega)
  split
  · simp only [List.cons_append, List.nil_append]
    rw [decodeFrom_opens (lead_three _ (by simp; omega) (by simp; omega)),
      decodeFrom_continue _ _ _ _ _ _
        (by constructor <;> split <;> simp_all [UInt8.le_iff_toNat_le] <;> omega), decodeRest,
      decodeFrom_continue _ _ _ _ _ _ (by simp [UInt8.le_iff_toNat_le]; omega)]
    simp only [decodeRest, List.cons.injEq, Option.some.injEq, and_true]
    exact ofNat_eq_of_toNat (by simp; omega)
  · simp only [List.cons_append, List.nil_append]
    rw [decodeFrom_opens (lead_four _ (by simp; omega) (by simp; omega)),
      decodeFrom_continue _ _ _ _ _ _
        (by constructor <;> split <;> simp_all [UInt8.le_iff_toNat_le] <;> omega), decodeRest,
      decodeFrom_continue _ _ _ _ _ _ (by simp [UInt8.le_iff_toNat_le]; omega), decodeRest,
      decodeFrom_continue _ _ _ _ _ _ (by simp [UInt8.le_iff_toNat_le]; omega)]
    simp only [decodeRest, List.cons.injEq, Option.some.injEq, and_true]
    exact ofNat_eq_of_toNat (by simp; omega)

theorem toNat_ofNat {n : Nat} (valid : n < 0xD800 ∨ 0xDFFF < n ∧ n < 0x110000) :
    (Char.ofNat n).val.toNat = n := by
  have scalar : n.isValidChar := valid
  rw [Char.ofNat, dif_pos scalar]
  rfl

theorem encodeChar_one (a : UInt8) (high : a.toNat < 0x80) :
    String.utf8EncodeChar (Char.ofNat a.toNat) = [a] := by
  unfold String.utf8EncodeChar
  rw [toNat_ofNat (by omega)]
  simp only
  rw [if_pos (by omega)]
  simp

theorem encodeChar_two (a b : UInt8) (lead : 0xC2 ≤ a.toNat ∧ a.toNat < 0xE0)
    (tail : 0x80 ≤ b.toNat ∧ b.toNat ≤ 0xBF) :
    String.utf8EncodeChar (Char.ofNat ((a.toNat - 0xC0) * 64 + (b.toNat - 0x80))) = [a, b] := by
  unfold String.utf8EncodeChar
  rw [toNat_ofNat (by omega)]
  simp only
  rw [if_neg (by omega), if_pos (by omega)]
  simp [← UInt8.toNat_inj]
  omega

theorem encodeChar_three (a b c : UInt8) (lead : 0xE0 ≤ a.toNat ∧ a.toNat < 0xF0)
    (next : 0x80 ≤ b.toNat ∧ b.toNat ≤ 0xBF) (notOverlong : a.toNat = 0xE0 → 0xA0 ≤ b.toNat)
    (noSurrogate : a.toNat = 0xED → b.toNat ≤ 0x9F) (tail : 0x80 ≤ c.toNat ∧ c.toNat ≤ 0xBF) :
    String.utf8EncodeChar (Char.ofNat
      (((a.toNat - 0xE0) * 64 + (b.toNat - 0x80)) * 64 + (c.toNat - 0x80))) = [a, b, c] := by
  unfold String.utf8EncodeChar
  rw [toNat_ofNat (by omega)]
  simp only
  rw [if_neg (by omega), if_neg (by omega), if_pos (by omega)]
  simp [← UInt8.toNat_inj]
  omega

theorem encodeChar_four (a b c d : UInt8) (lead : 0xF0 ≤ a.toNat ∧ a.toNat < 0xF5)
    (next : 0x80 ≤ b.toNat ∧ b.toNat ≤ 0xBF) (notOverlong : a.toNat = 0xF0 → 0x90 ≤ b.toNat)
    (inRange : a.toNat = 0xF4 → b.toNat ≤ 0x8F) (third : 0x80 ≤ c.toNat ∧ c.toNat ≤ 0xBF)
    (tail : 0x80 ≤ d.toNat ∧ d.toNat ≤ 0xBF) :
    String.utf8EncodeChar (Char.ofNat
      ((((a.toNat - 0xF0) * 64 + (b.toNat - 0x80)) * 64 + (c.toNat - 0x80)) * 64 +
        (d.toNat - 0x80))) = [a, b, c, d] := by
  unfold String.utf8EncodeChar
  rw [toNat_ofNat (by omega)]
  simp only
  rw [if_neg (by omega), if_neg (by omega), if_neg (by omega)]
  simp [← UInt8.toNat_inj]
  omega

/-- A begun character comes out whole only if the next byte continues it. -/
theorem exists_of_decodeFrom_pending {missing value : Nat} {low high : UInt8} {data : Bytes}
    {text : Text} (whole : decodeFrom (some ⟨missing, value, low, high⟩) data = text.map some) :
    ∃ b rest, data = b :: rest ∧ low.toNat ≤ b.toNat ∧ b.toNat ≤ high.toNat ∧
      decodeRest missing (value * 64 + (b.toNat - 0x80)) rest = text.map some := by
  cases data with
  | nil =>
    have : none ∈ text.map some := by rw [← whole, decodeFrom_pending_nil]; simp
    simp at this
  | cons b rest =>
    by_cases inside : low ≤ b ∧ b ≤ high
    · rw [decodeFrom_continue _ _ _ _ _ _ inside] at whole
      exact ⟨b, rest, rfl, inside.1, inside.2, whole⟩
    · have : none ∈ text.map some := by rw [← whole]; exact decodeFrom_break _ _ _ inside
      simp at this

/-- Where decoding reports no fault it has undone an encoding. -/
theorem exists_of_decodeFrom_cons {b : UInt8} {data : Bytes} {text : Text}
    (whole : decodeFrom none (b :: data) = text.map some) :
    ∃ c rest tail, b :: data = String.utf8EncodeChar c ++ rest ∧ text = c :: tail ∧
      decodeFrom none rest = tail.map some := by
  have finished {n : Nat} {rest : Bytes}
      (last : decodeRest 0 n rest = text.map some) :
      ∃ tail, text = Char.ofNat n :: tail ∧ decodeFrom none rest = tail.map some := by
    cases text with
    | nil => simp [decodeRest] at last
    | cons c tail =>
      simp only [decodeRest, List.map_cons, List.cons.injEq, Option.some.injEq] at last
      exact ⟨tail, by rw [last.1], last.2⟩
  by_cases one : b.toNat < 0x80
  · rw [decodeFrom_whole (lead_whole b one)] at whole
    obtain ⟨tail, rfl, rest⟩ := finished whole
    exact ⟨_, data, tail, by rw [encodeChar_one b one]; rfl, rfl, rest⟩
  by_cases two : 0xC2 ≤ b.toNat ∧ b.toNat < 0xE0
  · rw [decodeFrom_opens (lead_two b two.1 two.2)] at whole
    obtain ⟨x, rest, rfl, xlow, xhigh, whole⟩ := exists_of_decodeFrom_pending whole
    obtain ⟨tail, rfl, rest'⟩ := finished whole
    exact ⟨_, rest, tail, by rw [encodeChar_two b x two ⟨xlow, xhigh⟩]; rfl, rfl, rest'⟩
  by_cases three : 0xE0 ≤ b.toNat ∧ b.toNat < 0xF0
  · rw [decodeFrom_opens (lead_three b three.1 three.2)] at whole
    obtain ⟨x, rest, rfl, xlow, xhigh, whole⟩ := exists_of_decodeFrom_pending whole
    obtain ⟨y, rest, rfl, ylow, yhigh, whole⟩ := exists_of_decodeFrom_pending whole
    obtain ⟨tail, rfl, rest'⟩ := finished whole
    refine ⟨_, rest, tail, ?_, rfl, rest'⟩
    rw [encodeChar_three b x y three _ _ _ ⟨ylow, yhigh⟩]
    · rfl
    all_goals split at xlow <;> split at xhigh <;> simp_all <;> omega
  by_cases four : 0xF0 ≤ b.toNat ∧ b.toNat < 0xF5
  · rw [decodeFrom_opens (lead_four b four.1 four.2)] at whole
    obtain ⟨x, rest, rfl, xlow, xhigh, whole⟩ := exists_of_decodeFrom_pending whole
    obtain ⟨y, rest, rfl, ylow, yhigh, whole⟩ := exists_of_decodeFrom_pending whole
    obtain ⟨z, rest, rfl, zlow, zhigh, whole⟩ := exists_of_decodeFrom_pending whole
    obtain ⟨tail, rfl, rest'⟩ := finished whole
    refine ⟨_, rest, tail, ?_, rfl, rest'⟩
    rw [encodeChar_four b x y z four _ _ _ ⟨ylow, yhigh⟩ ⟨zlow, zhigh⟩]
    · rfl
    all_goals split at xlow <;> split at xhigh <;> simp_all <;> omega
  · rw [decodeFrom_illFormed (lead_illFormed b (by omega))] at whole
    have : none ∈ text.map some := by rw [← whole]; simp
    simp at this

/-- Decoding undoes encoding. -/
theorem decode_encode (text : Text) : decode text.encode = text.map some := by
  change decodeFrom none text.encode = _
  induction text with
  | nil => rfl
  | cons c text ih =>
    rw [Text.encode, List.flatMap_cons, decodeFrom_encodeChar]
    exact congrArg _ ih

theorem eq_encode_of_decode {data : Bytes} {text : Text} (whole : decode data = text.map some) :
    data = text.encode := by
  induction text generalizing data with
  | nil =>
    cases data with
    | nil => rfl
    | cons b data =>
      obtain ⟨_, _, _, _, none, _⟩ :=
        exists_of_decodeFrom_cons (show decodeFrom none (b :: data) = ([] : Text).map some from whole)
      cases none
  | cons c text ih =>
    cases data with
    | nil => simp [decode, Decoder.finish] at whole
    | cons b data =>
      obtain ⟨d, rest, tail, split, same, whole⟩ := exists_of_decodeFrom_cons whole
      obtain ⟨rfl, rfl⟩ := List.cons.inj same
      rw [split, ih whole, Text.encode, Text.encode, List.flatMap_cons]

end Utf8

namespace Text

/-- Strict decoding accepts exactly what encoding produces. -/
theorem decode?_eq_some_iff {data : Bytes} {text : Text} :
    decode? data = some text ↔ data = text.encode := by
  constructor
  · intro decoded
    apply Utf8.eq_encode_of_decode
    simp only [decode?] at decoded
    split at decoded
    · rename_i whole
      rw [← Option.some.inj decoded]
      generalize Utf8.decode data = chars at whole
      induction chars with
      | nil => rfl
      | cons char chars ih =>
        cases char with
        | none => simp at whole
        | some c => simpa using ih (by simpa using whole)
    · cases decoded
  · rintro rfl
    simp [decode?, Utf8.decode_encode, List.filterMap_map]

theorem decode?_encode (text : Text) : decode? text.encode = some text :=
  decode?_eq_some_iff.2 rfl

theorem encode_injective {a b : Text} (same : a.encode = b.encode) : a = b := by
  have := decode?_encode a
  rw [same, decode?_encode] at this
  exact (Option.some.inj this).symm

@[simp] theorem encode_nil : encode [] = [] := rfl

@[simp] theorem encode_cons (c : Char) (text : Text) :
    encode (c :: text) = String.utf8EncodeChar c ++ encode text := rfl

@[simp] theorem encode_append (a b : Text) : encode (a ++ b) = encode a ++ encode b :=
  List.flatMap_append

theorem length_encodeChar_pos (c : Char) : 0 < (String.utf8EncodeChar c).length := by
  rw [String.length_utf8EncodeChar]
  exact c.utf8Size_pos

theorem length_le_encode (text : Text) : text.length ≤ text.encode.length := by
  induction text with
  | nil => exact Nat.le_refl _
  | cons c text ih =>
    have some := length_encodeChar_pos c
    rw [encode_cons, List.length_cons, List.length_append]
    omega

/-- A character of one byte is part of no other one. -/
theorem mem_encodeChar_ascii {b : UInt8} (ascii : b.toNat < 0x80) {c : Char} :
    b ∈ String.utf8EncodeChar c ↔ c = Char.ofNat b.toNat := by
  constructor
  · intro member
    simp only [String.utf8EncodeChar] at member
    split at member
    · rename_i small
      simp only [List.mem_singleton, ← UInt8.toNat_inj, UInt8.toNat_ofNat'] at member
      have same : c.toNat = b.toNat := by
        change c.val.toNat = _
        omega
      rw [← same, Char.ofNat_toNat]
    all_goals
      repeat' split at member
      all_goals simp [← UInt8.toNat_inj] at member; omega
  · rintro rfl
    rw [Utf8.encodeChar_one b ascii]
    exact List.mem_singleton_self b

theorem mem_encode_ascii {b : UInt8} (ascii : b.toNat < 0x80) {text : Text} :
    b ∈ encode text ↔ Char.ofNat b.toNat ∈ text := by
  induction text with
  | nil => simp
  | cons c text ih => simp [mem_encodeChar_ascii ascii, ih, eq_comm]

/-- A line feed is a byte of its own. -/
theorem mem_encode_lf {text : Text} : 0x0A ∈ encode text ↔ '\n' ∈ text :=
  mem_encode_ascii (by decide)

end Text
end Bootscript
