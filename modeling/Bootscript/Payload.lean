import Bootscript.Base64

/-! An archive as lines that can stand at the end of a script: base64 text of bounded
width inside a triple-quoted string literal. -/
namespace Bootscript

structure Payload where
  encoded : Text
  deriving DecidableEq, Repr

namespace Payload

def ofArchive (data : Bytes) : Payload := ⟨Base64.encode data⟩

def width : Nat := 76

def quote : Line := ['"', '"', '"']

/-- Cuts text into rows of the payload's width; only the last may be shorter. -/
def rows (text : Text) : List Line :=
  if _ : text = [] then []
  else text.take width :: rows (text.drop width)
termination_by text.length
decreasing_by
  rename_i h
  have := List.length_pos_iff.2 h
  simp [width]
  omega

/-- The empty line at the end makes the script end with a line break. -/
def lines (p : Payload) : List Line := quote :: rows p.encoded ++ [quote, []]

def isBlockChar (c : Char) : Bool := c.isAlphanum || c == '+' || c == '/' || c == '='

def isBlockLine (line : Line) : Bool := line.length ≤ width && line.all isBlockChar

def isBlock (lines : List Line) : Bool :=
  match lines with
  | first :: rest =>
    match rest.reverse with
    | last :: close :: inner =>
      first == quote && close == quote && last.isEmpty && inner.all isBlockLine
    | _ => false
  | [] => false

end Payload
end Bootscript
