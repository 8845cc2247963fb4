import Bootscript.Archive.Deflate.Code

/-! The compressed data format of zip members: blocks of bytes as they are, or of words of
two prefix codes, which stand for bytes and for copies of what came before. -/
namespace Bootscript.Archive.Deflate

/-- The least length of a copy for each symbol, and how many more bits count on from it. -/
def lengthSteps : Array (Nat × Nat) := #[
  (3, 0), (4, 0), (5, 0), (6, 0), (7, 0), (8, 0), (9, 0), (10, 0), (11, 1), (13, 1), (15, 1),
  (17, 1), (19, 2), (23, 2), (27, 2), (31, 2), (35, 3), (43, 3), (51, 3), (59, 3), (67, 4),
  (83, 4), (99, 4), (115, 4), (131, 5), (163, 5), (195, 5), (227, 5), (258, 0)]

def distanceSteps : Array (Nat × Nat) := #[
  (1, 0), (2, 0), (3, 0), (4, 0), (5, 1), (7, 1), (9, 2), (13, 2), (17, 3), (25, 3), (33, 4),
  (49, 4), (65, 5), (97, 5), (129, 6), (193, 6), (257, 7), (385, 7), (513, 8), (769, 8),
  (1025, 9), (1537, 9), (2049, 10), (3073, 10), (4097, 11), (6145, 11), (8193, 12),
  (12289, 12), (16385, 13), (24577, 13)]

def step (steps : Array (Nat × Nat)) (symbol : Nat) : Reader Nat := do
  match steps[symbol]? with
  | some (least, more) => return least + (← bits more)
  | none => throw .corrupt

/-- The symbol that ends a block. Those below it are bytes, those above it lengths. -/
def endOfBlock : Nat := 256

/-- The words of a block up to its end. Every word takes a bit, so `fuel` is the number of
bits that are left. -/
def words (literals distances : Code) : Nat → Reader Unit
  | 0 => throw .brokenOff
  | fuel + 1 => do
    let symbol ← literals.symbol
    if symbol = endOfBlock then return ()
    else if symbol < endOfBlock then emit (UInt8.ofNat symbol)
    else
      let length ← step lengthSteps (symbol - endOfBlock - 1)
      let distance ← step distanceSteps (← distances.symbol)
      copy distance length
    words literals distances fuel

def stored : Reader Unit := do
  align
  let length ← take 2
  let complement ← take 2
  if complement.length < 2 then throw .brokenOff
  if number length + number complement ≠ 65535 then throw .corrupt
  let data ← take (number length)
  modify fun s => { s with output := s.output ++ data }
  if data.length < number length then throw .brokenOff

theorem stored_append {l c data : Bytes} (hl : l.length = 2) (hc : c.length = 2)
    (length : number l = data.length) (sum : number l + number c = 65535) (b : UInt8) (used : Nat)
    (begun : used ≠ 0) (rest : Bytes) (output : Array UInt8) :
    stored ⟨b :: (l ++ (c ++ (data ++ rest))), used, output⟩ =
      .ok () ⟨rest, 0, output ++ data⟩ := by
  rw [length] at sum
  simp [stored, bind_apply, pure_apply, modify_apply, take_apply, align_apply, begun, hl, hc,
    length, sum]

def fixedLiterals : Code :=
  .ofLengths (List.replicate 144 8 ++ List.replicate 112 9 ++ List.replicate 24 7 ++
    List.replicate 8 8)

def fixedDistances : Code := .ofLengths (List.replicate 32 5)

/-- The symbols of the code in which lengths are written, in the order of their widths. -/
def lengthOrder : List Nat := [16, 17, 18, 0, 8, 7, 9, 6, 10, 5, 11, 4, 12, 3, 13, 2, 14, 1, 15]

/-- A length, or one that repeats: the last one, or that of symbols not in use. -/
def run (code : Code) (last : Option Nat) : Reader (Nat × Nat) := do
  let symbol ← code.symbol
  if symbol < 16 then return (1, symbol)
  else if symbol = 16 then
    match last with
    | some length => return (3 + (← bits 2), length)
    | none => throw .corrupt
  else if symbol = 17 then return (3 + (← bits 3), 0)
  else return (11 + (← bits 7), 0)

/-- As many lengths as are missing, after those that are read. -/
def lengths (code : Code) : Nat → Nat → List Nat → Reader (List Nat)
  | _, 0, read => return read.reverse
  | 0, _, _ => throw .corrupt
  | fuel + 1, missing, read => do
    let (count, length) ← run code read.head?
    if missing < count then throw .corrupt
    lengths code fuel (missing - count) (List.replicate count length ++ read)

def codes : Reader (Code × Code) := do
  let literals := 257 + (← bits 5)
  let distances := 1 + (← bits 5)
  let count := 4 + (← bits 4)
  if 286 < literals ∨ 30 < distances then throw .corrupt
  let widths ← (List.replicate count 3).mapM bits
  let code := Code.ofLengths ((List.range lengthOrder.length).map fun symbol =>
    ((lengthOrder.zip widths).lookup symbol).getD 0)
  if !code.isComplete then throw .corrupt
  let all ← lengths code (literals + distances) (literals + distances) []
  let first := Code.ofLengths (all.take literals)
  let second := Code.ofLengths (all.drop literals)
  if !(first.isUsable && second.isUsable) then throw .corrupt
  return (first, second)

def blocks (limit : Nat) : Nat → Reader Unit
  | 0 => throw .brokenOff
  | fuel + 1 => do
    let last ← bit
    match ← bits 2 with
    | 0 => stored
    | 1 => words fixedLiterals fixedDistances limit
    | 2 =>
      let (literals, distances) ← codes
      words literals distances limit
    | _ => throw .corrupt
    if last = 0 then blocks limit fuel

/-- The bytes that compressed data stands for, and those before its end if it ends too
early. What follows the last block is not looked at. -/
def inflate? (data : Bytes) : Option Bytes :=
  let limit := 8 * data.length + 1
  match (blocks limit limit).run { bytes := data } with
  | .ok _ s => some s.output.toList
  | .error .brokenOff s => some s.output.toList
  | .error .corrupt _ => none

end Bootscript.Archive.Deflate
