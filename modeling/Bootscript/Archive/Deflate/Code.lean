import Bootscript.Archive.Deflate.Bits

/-! Prefix codes that are fixed by the lengths of their words alone: shorter words come
before longer ones, and words of one length are in the order of their symbols. -/
namespace Bootscript.Archive.Deflate

/-- For each length from 1 on, the symbols whose words have that length. -/
structure Code where
  levels : List (Array Nat)
  deriving DecidableEq, Repr

namespace Code

def maxLength : Nat := 15

/-- The code in which each symbol has the length that stands at its place in the list. A
symbol of length 0 has no word. -/
def ofLengths (lengths : List Nat) : Code :=
  ⟨(List.range maxLength).map fun n =>
    ((lengths.zipIdx.filter (·.1 = n + 1)).map (·.2)).toArray⟩

def size (code : Code) : Nat := code.levels.foldl (fun n level => n + level.size) 0

/-- How many bit strings of the greatest length start with a word. -/
def coverage (code : Code) : Nat := code.levels.foldl (fun n level => 2 * n + level.size) 0

/-- Whether every long enough string of bits starts with just one word. -/
def isComplete (code : Code) : Bool := code.coverage == Nat.pow 2 maxLength

/-- A code with one word or none need not be complete. -/
def isUsable (code : Code) : Bool := code.isComplete || code.size ≤ 1

/-- Goes down a level with each bit. `offset` counts from the first word of a level that
does not start with a shorter word. -/
def descend : List (Array Nat) → Nat → Reader Nat
  | [], _ => throw .corrupt
  | level :: deeper, offset => do
    let offset := 2 * offset + (← bit)
    match level[offset]? with
    | some symbol => return symbol
    | none => descend deeper (offset - level.size)

def symbol (code : Code) : Reader Nat := descend code.levels 0

end Code
end Bootscript.Archive.Deflate
