import Bootscript.Archive.CodePage
import Bootscript.Archive.Deflate.Stream
import Bootscript.Archive.Zip

/-! Reading zip archives. An archive is found by its end record, which is looked for from
the end of the data; bytes may stand before and after it. -/
namespace Bootscript.Archive

structure Entry where
  name : Text
  data : Bytes
  checksum : Nat
  method : Nat
  mode : Nat
  date : Nat
  time : Nat
  deriving DecidableEq, Repr

/-- What the directory tells of a member. Its local record is `start` bytes behind the
start of the archive. -/
structure Record where
  label : Bytes
  name : Text
  flags : Nat
  method : Nat
  time : Nat
  date : Nat
  checksum : Nat
  packed : Nat
  size : Nat
  mode : Nat
  start : Nat
  deriving DecidableEq, Repr

namespace Record

/-- Stands for a number that needs more than 32 bits. -/
def tooWide : Nat := 0xFFFFFFFF

/-- Takes sizes and start from a field of wide numbers: all of them if it has room for all,
and else those that need it. -/
def widen? (r : Record) (content : Bytes) : Option Record :=
  let next (old used : Nat) : Nat × Nat :=
    if 24 ≤ content.length ∨ old = tooWide then (numberAt content used 8, used + 8)
    else (old, used)
  let (size, used) := next r.size 0
  let (packed, used) := next r.packed used
  let (start, used) := next r.start used
  if used ≤ content.length then some { r with size, packed, start } else none

/-- Takes the name from a field that repeats it in UTF-8. The field belongs to the name
of which it holds the checksum. -/
def rename? (r : Record) (content : Bytes) : Option Record :=
  if 5 ≤ content.length ∧ numberAt content 1 4 = (Archive.checksum r.label).toNat then
    (Text.decode? (content.drop 5)).map fun name => { r with label := content.drop 5, name }
  else none

/-- Whether a field holds as many times as its first byte announces, or just one. -/
def isTimes (content : Bytes) : Bool :=
  match content with
  | [] => false
  | b :: times =>
    times.length == 4 || times.length == 4 * (List.range 8).countP (b.toNat.testBit ·)

def extra? (r : Record) (kind : Nat) (content : Bytes) : Option Record :=
  if kind = 0x0001 then r.widen? content
  else if kind = 0x7075 then r.rename? content
  else if kind = 0x5455 then (if isTimes content then some r else none)
  else some r

def extras? : Nat → Record → Bytes → Option Record
  | 0, r, _ => some r
  | fuel + 1, r, data =>
    let length := numberAt data 2 2
    if data.length < 4 + length then some r
    else
      (r.extra? (numberAt data 0 2) ((data.drop 4).take length)).bind fun r =>
        extras? fuel r (data.drop (4 + length))

def read? (data : Bytes) : Option (Record × Bytes) := do
  let nameLength := numberAt data 28 2
  let extraLength := numberAt data 30 2
  let length := 46 + nameLength + extraLength + numberAt data 32 2
  if numberAt data 0 4 = centralMark ∧ (data.take length).length = length then
    let label := (data.drop 46).take nameLength
    let extra := (data.drop (46 + nameLength)).take extraLength
    let flags := numberAt data 8 2
    let record ← extras? extra.length {
      label
      name := if flags.testBit 11 then Text.decodeLossy label else CodePage.decode label
      flags
      method := numberAt data 10 2
      time := numberAt data 12 2
      date := numberAt data 14 2
      checksum := numberAt data 16 4
      packed := numberAt data 20 4
      size := numberAt data 24 4
      mode := numberAt data 38 4 / 65536
      start := numberAt data 42 4 } extra
    some (record, data.drop length)
  else none

def content? (archive : Bytes) (directory shift : Nat) (r : Record) : Option Nat :=
  let start := r.start + shift
  let header := archive.drop start
  let content := start + 30 + numberAt header 26 2 + numberAt header 28 2
  if start < directory ∧ numberAt header 0 4 = localMark ∧ content ≤ directory then some content
  else none

/-- The member whose bytes start at `content`. It must not be encrypted, and its checksum
must hold. -/
def entry? (archive : Bytes) (r : Record) (content : Nat) : Option Entry := do
  let packed := (archive.drop content).take r.packed
  let data ←
    if r.flags.testBit 0 then none
    else if r.method = deflated then Deflate.inflate? packed
    else if r.method = 0 then some packed
    else none
  if (Archive.checksum data).toNat = r.checksum then
    some { r with data }
  else none

end Record

/-- The places of a four-byte mark, counted from `place` at the start of the data. -/
def marks (mark : Nat) : Nat → Bytes → List Nat
  | _, [] => []
  | place, b :: rest =>
    if numberAt (b :: rest) 0 4 = mark then place :: marks mark (place + 1) rest
    else marks mark (place + 1) rest

/-- A list in which a record takes the place of an earlier one with its name. -/
def enter (r : Record × Nat) : List (Record × Nat) → List (Record × Nat)
  | [] => [r]
  | other :: rest => if other.1.name = r.1.name then r :: rest else other :: enter r rest

/-- Reads `count` central records, each with the place of its member's bytes. -/
def records? (archive : Bytes) (directory shift : Nat) :
    Nat → List (Record × Nat) → Bytes → Option (List (Record × Nat))
  | 0, entered, _ => some entered
  | count + 1, entered, data => do
    let (record, data) ← Record.read? data
    let content ← record.content? archive directory shift
    records? archive directory shift count (enter (record, content) entered) data

/-- The records that belong to the end record at a place. The first central record behind
the place that the end record names tells how far the whole archive is shifted. -/
def directory? (archive : Bytes) (place : Nat) : Option (List (Record × Nat)) := do
  let ending := archive.drop place
  let start := numberAt ending 16 4
  let shift ←
    if ending.length < 22 + numberAt ending 20 2 then none
    else if numberAt ending 10 2 = 0 then some (place - start)
    else (marks centralMark 0 ((archive.take place).drop start)).head?
  if numberAt ending 4 2 = numberAt ending 6 2 then
    let directory := start + shift
    records? archive directory shift (numberAt ending 8 2) [] (archive.drop directory)
  else none

/-- Reads the archive of the last end record that has a directory. -/
def read? (archive : Bytes) : Option (List Entry) := do
  let records ← (marks endMark 0 archive).reverse.findSome? (directory? archive)
  records.mapM fun (record, content) => record.entry? archive content

end Bootscript.Archive
