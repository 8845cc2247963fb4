import Bootscript.Text

/-! The 32-bit cyclic redundancy check of the zip format. -/
namespace Bootscript.Archive

def shiftBit (crc : UInt32) : UInt32 :=
  if crc &&& 1 = 1 then (crc >>> 1) ^^^ 0xEDB88320 else crc >>> 1

def shiftByte (crc : UInt32) (b : UInt8) : UInt32 :=
  (List.range 8).foldl (fun crc _ => shiftBit crc) (crc ^^^ b.toUInt32)

def checksum (data : Bytes) : UInt32 := data.foldl shiftByte 0xFFFFFFFF ^^^ 0xFFFFFFFF

end Bootscript.Archive
