import Bootscript.Archive.Field

/-! Reading compressed data bit by bit, the low bits of each byte first, next to the bytes
that have been made of it so far. -/
namespace Bootscript.Archive.Deflate

/-- Why compressed data cannot be read on: it ends too early, or it breaks the format. -/
inductive Fault where
  | brokenOff
  | corrupt
  deriving DecidableEq, Repr

/-- The bytes to read, of which `used` bits of the first are read, and the output. -/
structure State where
  bytes : Bytes
  used : Nat := 0
  output : Array UInt8 := #[]
  deriving DecidableEq, Repr

/-- A fault leaves the output that was made before it. -/
abbrev Reader := EStateM Fault State

section Steps

variable {α β : Type} (s : State)

theorem bind_apply (x : Reader α) (f : α → Reader β) :
    (x >>= f) s =
      match x s with
      | .ok a s => f a s
      | .error fault s => .error fault s := by
  simp only [bind, EStateM.bind]
  cases x s <;> rfl

theorem pure_apply (a : α) : (pure a : Reader α) s = .ok a s := rfl

theorem get_apply : (get : Reader State) s = .ok s s := rfl

theorem set_apply (new : State) : (set new : Reader PUnit) s = .ok () new := rfl

theorem modify_apply (f : State → State) : (modify f : Reader PUnit) s = .ok () (f s) := rfl

end Steps

def bit : Reader Nat := do
  let s ← get
  match s.bytes with
  | [] => throw .brokenOff
  | b :: rest =>
    if s.used = 7 then set { s with bytes := rest, used := 0 }
    else set { s with used := s.used + 1 }
    return b.toNat >>> s.used % 2

def bits : Nat → Reader Nat
  | 0 => return 0
  | width + 1 => do
    let low ← bit
    let high ← bits width
    return low + 2 * high

def align : Reader Unit :=
  modify fun s => if s.used = 0 then s else { s with bytes := s.bytes.drop 1, used := 0 }

def take (count : Nat) : Reader Bytes :=
  modifyGet fun s => (s.bytes.take count, { s with bytes := s.bytes.drop count })

def emit (b : UInt8) : Reader Unit := modify fun s => { s with output := s.output.push b }

/-- The byte that stands `distance` before the end. Zeros stand before the start. -/
def back (output : Array UInt8) (distance : Nat) : UInt8 :=
  if distance ≤ output.size then output.getD (output.size - distance) 0 else 0

/-- Repeats what stands `distance` before the end, byte by byte, so that the copy may run
into itself. -/
def extend (distance : Nat) : Nat → Array UInt8 → Array UInt8
  | 0, output => output
  | length + 1, output => extend distance length (output.push (back output distance))

def copy (distance length : Nat) : Reader Unit :=
  modify fun s => { s with output := extend distance length s.output }

theorem bit_cons (b : UInt8) (rest : Bytes) (used : Nat) (output : Array UInt8)
    (more : used ≠ 7) :
    bit ⟨b :: rest, used, output⟩ =
      .ok (b.toNat >>> used % 2) ⟨b :: rest, used + 1, output⟩ := by
  simp only [bit, bind_apply, get_apply, set_apply, pure_apply, if_neg more]

theorem take_apply (count : Nat) (s : State) :
    take count s = .ok (s.bytes.take count) { s with bytes := s.bytes.drop count } := rfl

theorem align_apply (s : State) :
    align s = .ok () (if s.used = 0 then s else { s with bytes := s.bytes.drop 1, used := 0 }) := rfl

end Bootscript.Archive.Deflate
