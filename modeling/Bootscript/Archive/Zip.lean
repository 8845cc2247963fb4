import Bootscript.Archive.Checksum
import Bootscript.Archive.Stored

/-! Writing zip archives of named members. Every member carries the same time and
permissions, so the archive depends on nothing but names and bytes. The data is stored in
blocks as it is: what packs the archive of a run is left to its host, and another packer, one
that compresses, does as well if its archives are read back as their members. -/
namespace Bootscript.Archive

structure Member where
  name : Text
  data : Bytes
  deriving DecidableEq, Repr

/-- The first day that the format can express, 1 January 1980: months and days count from 1. -/
def memberDate : Nat := 1 * 32 + 1
def memberTime : Nat := 0

def memberMode : Nat := 0o100644

def deflated : Nat := 8

/-- Announces that a name is UTF-8, where that makes a difference. -/
def nameFlag (name : Text) : Nat := if name.all fun c => c.toNat < 0x80 then 0 else 2048

def localMark : Nat := 0x04034b50
def centralMark : Nat := 0x02014b50
def endMark : Nat := 0x06054b50

def description (m : Member) : Bytes :=
  field 2 20 ++ field 2 (nameFlag m.name) ++ field 2 deflated ++ field 2 memberTime ++
    field 2 memberDate ++ field 4 (checksum m.data).toNat ++
    field 4 (Stored.encode m.data).length ++ field 4 m.data.length ++
    field 2 m.name.encode.length ++ field 2 0

def localRecord (m : Member) : Bytes :=
  field 4 localMark ++ description m ++ m.name.encode ++ Stored.encode m.data

/-- Made on a Unix system, whose file mode stands in the high half of the attributes. -/
def centralRecord (offset : Nat) (m : Member) : Bytes :=
  field 4 centralMark ++ field 2 (3 * 256 + 20) ++ description m ++ field 2 0 ++ field 2 0 ++
    field 2 0 ++ field 4 (memberMode * 65536) ++ field 4 offset ++ m.name.encode

def centralRecords (offset : Nat) : List Member → Bytes
  | [] => []
  | m :: rest => centralRecord offset m ++ centralRecords (offset + (localRecord m).length) rest

def endRecord (count size offset : Nat) : Bytes :=
  field 4 endMark ++ field 2 0 ++ field 2 0 ++ field 2 count ++ field 2 count ++ field 4 size ++
    field 4 offset ++ field 2 0

def write (members : List Member) : Bytes :=
  let records := members.flatMap localRecord
  let directory := centralRecords 0 members
  records ++ directory ++ endRecord members.length directory.length records.length

end Bootscript.Archive
