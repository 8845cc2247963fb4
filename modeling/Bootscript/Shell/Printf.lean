import Bootscript.Text.Piece

/-! All that `printf` prints for `%b` of an argument, as far as POSIX says it. -/
namespace Bootscript.Shell

def escapedByte? (c : Char) : Option UInt8 :=
  match c with
  | '\\' => some 0x5C
  | 'a' => some 0x07
  | 'b' => some 0x08
  | 'f' => some 0x0C
  | 'n' => some 0x0A
  | 'r' => some 0x0D
  | 't' => some 0x09
  | 'v' => some 0x0B
  | _ => none

/-- The bytes that come out, or nothing where the escapes are not those of POSIX. A `\c` ends
the output, and a zero may have up to three octal digits of a byte behind it. -/
def percentB? (argument : Text) : Option Bytes :=
  match argument with
  | [] => some []
  | c :: rest =>
    if c = '\\' then
      match rest with
      | [] => none
      | escaped :: rest =>
        if escaped = 'c' then some []
        else if escaped = '0' then
          let byte := Nat.ofDigitChars 8 (Text.octal rest) 0
          if byte < 256 then
            (percentB? (rest.drop (Text.octal rest).length)).map (UInt8.ofNat byte :: ·)
          else none
        else do
          let byte ← escapedByte? escaped
          let printed ← percentB? rest
          return byte :: printed
    else (percentB? rest).map (String.utf8EncodeChar c ++ ·)
termination_by argument.length
decreasing_by all_goals simp; try omega

end Bootscript.Shell
