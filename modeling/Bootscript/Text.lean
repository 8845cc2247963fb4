/-! Text is a list of characters, a file a list of bytes, and UTF-8 joins the two.
Decoding reports one fault per ill-formed sequence, as short as it can be told to be
ill-formed; strict decoding refuses them and lossy decoding shows each as U+FFFD. -/
namespace Bootscript

abbrev Bytes := List UInt8
abbrev Text := List Char

abbrev Line := Text

/-- The pieces between the separators: always one more than there are separators. -/
def splitOnto {α : Type} [DecidableEq α] (separator : α) (piece : List α) : List α → List (List α)
  | [] => [piece.reverse]
  | a :: rest =>
    if a = separator then piece.reverse :: splitOnto separator [] rest
    else splitOnto separator (a :: piece) rest

def split {α : Type} [DecidableEq α] (separator : α) (items : List α) : List (List α) :=
  splitOnto separator [] items

/-- Order of sequences by their first difference, a proper beginning coming first. -/
def lexicographic {α : Type} [DecidableEq α] (le : α → α → Bool) : List α → List α → Bool
  | [], _ => true
  | _ :: _, [] => false
  | a :: as, b :: bs => if a = b then lexicographic le as bs else le a b

def Bytes.le : Bytes → Bytes → Bool := lexicographic fun a b => a ≤ b

/-- By code point, which is also the order of the encoded bytes. -/
def Text.le : Text → Text → Bool := lexicographic fun a b => a.val ≤ b.val

def Bytes.toByteArray (data : Bytes) : ByteArray := ⟨data.toArray⟩

namespace Utf8

/-- A character of which the first bytes are read: `missing` bytes follow the next one,
and the next one lies from `low` to `high`. -/
structure Partial where
  missing : Nat
  value : Nat
  low : UInt8
  high : UInt8
  deriving DecidableEq, Repr

inductive Lead where
  | whole (char : Char)
  | opens (char : Partial)
  | illFormed
  deriving DecidableEq, Repr

/-- The bounds on the second byte exclude overlong forms, surrogates and values past U+10FFFF. -/
def lead (b : UInt8) : Lead :=
  if b < 0x80 then .whole (Char.ofNat b.toNat)
  else if b < 0xC2 then .illFormed
  else if b < 0xE0 then .opens ⟨0, b.toNat - 0xC0, 0x80, 0xBF⟩
  else if b < 0xF0 then
    .opens ⟨1, b.toNat - 0xE0, if b = 0xE0 then 0xA0 else 0x80, if b = 0xED then 0x9F else 0xBF⟩
  else if b < 0xF5 then
    .opens ⟨2, b.toNat - 0xF0, if b = 0xF0 then 0x90 else 0x80, if b = 0xF4 then 0x8F else 0xBF⟩
  else .illFormed

/-- `none` in the output stands for an ill-formed sequence. -/
structure Decoder where
  pending : Option Partial := none
  output : Array (Option Char) := #[]

def Decoder.start (d : Decoder) (b : UInt8) : Decoder :=
  match lead b with
  | .whole char => ⟨none, d.output.push (some char)⟩
  | .opens char => ⟨some char, d.output⟩
  | .illFormed => ⟨none, d.output.push none⟩

/-- A byte that cannot continue the character before it may still start one. -/
def Decoder.feed (d : Decoder) (b : UInt8) : Decoder :=
  match d.pending with
  | none => d.start b
  | some char =>
    if char.low ≤ b ∧ b ≤ char.high then
      let value := char.value * 64 + (b.toNat - 0x80)
      match char.missing with
      | 0 => ⟨none, d.output.push (some (Char.ofNat value))⟩
      | missing + 1 => ⟨some ⟨missing, value, 0x80, 0xBF⟩, d.output⟩
    else Decoder.start ⟨none, d.output.push none⟩ b

def Decoder.finish (d : Decoder) : List (Option Char) :=
  match d.pending with
  | none => d.output.toList
  | some _ => (d.output.push none).toList

def decode (data : Bytes) : List (Option Char) :=
  (data.foldl Decoder.feed {}).finish

end Utf8

namespace Text

def encode (text : Text) : Bytes := text.flatMap String.utf8EncodeChar

def decode? (data : Bytes) : Option Text :=
  let chars := Utf8.decode data
  if chars.all Option.isSome then some (chars.filterMap id) else none

def decodeLossy (data : Bytes) : Text :=
  (Utf8.decode data).map fun char => char.getD '\ufffd'

def byteLength (text : Text) : Nat := (encode text).length

end Text
end Bootscript
