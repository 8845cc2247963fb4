import Bootscript.Archive.Directory
import Bootscript.Proofs.Utf8
import Mathlib.Data.List.Nodup

/-! Reading an archive that was written. Its end record is the last one that there is room
for, and the directory before it leads to each member. -/
namespace Bootscript.Archive

section Fields

variable {front rest : Bytes} {offset width n : Nat}

theorem numberAt_skip (passed : front.length ≤ offset) :
    numberAt (front ++ rest) offset width = numberAt rest (offset - front.length) width := by
  rw [numberAt, numberAt, List.drop_append, List.drop_of_length_le passed, List.nil_append]

theorem numberAt_field (small : n < Nat.pow 256 width) :
    numberAt (field width n ++ rest) 0 width = n := by
  rw [numberAt, List.drop_zero, List.take_left' (length_field width n), number_field]
  exact Nat.mod_eq_of_lt small

theorem numberAt_field_self (small : n < Nat.pow 256 width) : numberAt (field width n) 0 width = n := by
  rw [← List.append_nil (field width n), numberAt_field small]

end Fields

section Name

theorem nameFlag_lt (name : Text) : nameFlag name < 65536 := by
  rw [nameFlag]
  split <;> decide

theorem decode_encode_ascii {text : Text} (small : ∀ c ∈ text, c.toNat < 0x80) :
    CodePage.decode text.encode = text := by
  induction text with
  | nil => rfl
  | cons c text ih =>
    obtain ⟨first, later⟩ := List.forall_mem_cons.1 small
    have byte : (UInt8.ofNat c.toNat).toNat = c.toNat := UInt8.toNat_ofNat_of_lt' (Nat.lt_trans first (by decide))
    have single := Utf8.encodeChar_one (UInt8.ofNat c.toNat) (by omega)
    have lower : UInt8.ofNat c.toNat < 0x80 := by
      rw [UInt8.lt_iff_toNat_lt, byte]
      exact first
    rw [byte, Char.ofNat_toNat] at single
    rw [Text.encode_cons, single, List.singleton_append, CodePage.decode, List.map_cons,
      ← CodePage.decode, ih later, CodePage.decodeByte, if_pos lower, byte, Char.ofNat_toNat]

/-- A name is announced as UTF-8 unless it is ASCII, where all encodings agree. -/
theorem decode_name (name : Text) : (if (nameFlag name).testBit 11 then
    Text.decodeLossy name.encode else CodePage.decode name.encode) = name := by
  unfold nameFlag
  split
  · rename_i small
    exact decode_encode_ascii (by simpa using small)
  · rw [if_pos (by decide), Text.decodeLossy, Utf8.decode_encode, List.map_map]
    exact List.map_id' name

end Name

namespace Member

def record (m : Member) (start : Nat) : Record where
  label := m.name.encode
  name := m.name
  flags := nameFlag m.name
  method := deflated
  time := memberTime
  date := memberDate
  checksum := (checksum m.data).toNat
  packed := (Stored.encode m.data).length
  size := m.data.length
  mode := memberMode
  start

def entry (m : Member) : Entry where
  name := m.name
  data := m.data
  checksum := (checksum m.data).toNat
  method := deflated
  mode := memberMode
  date := memberDate
  time := memberTime

structure Fits (m : Member) : Prop where
  name : m.name.encode.length < 65536
  packed : (Stored.encode m.data).length < 4294967296
  size : m.data.length < 4294967296

end Member

structure IsCentral (data : Bytes) (m : Member) (start : Nat) : Prop where
  mark : numberAt data 0 4 = centralMark
  flags : numberAt data 8 2 = nameFlag m.name
  method : numberAt data 10 2 = deflated
  time : numberAt data 12 2 = memberTime
  date : numberAt data 14 2 = memberDate
  checksum : numberAt data 16 4 = (Archive.checksum m.data).toNat
  packed : numberAt data 20 4 = (Stored.encode m.data).length
  size : numberAt data 24 4 = m.data.length
  nameLength : numberAt data 28 2 = m.name.encode.length
  extraLength : numberAt data 30 2 = 0
  commentLength : numberAt data 32 2 = 0
  mode : numberAt data 38 4 = memberMode * 65536
  start : numberAt data 42 4 = start

section Records

variable {m : Member} (fits : m.Fits) (rest : Bytes)
include fits

theorem isCentral_centralRecord {offset : Nat} (near : offset < 4294967296) :
    IsCentral (centralRecord offset m ++ rest) m offset := by
  have := fits.name
  have := fits.packed
  have := fits.size
  have := nameFlag_lt m.name
  have := (checksum m.data).toNat_lt
  constructor <;>
    simp [centralRecord, description, numberAt_skip, numberAt_field, centralMark, deflated,
      memberTime, memberDate, memberMode, *]

theorem read?_centralRecord {offset : Nat} (near : offset < 4294967296) :
    Record.read? (centralRecord offset m ++ rest) = some (m.record offset, rest) := by
  have central := isCentral_centralRecord fits rest near
  obtain ⟨header, length, whole⟩ : ∃ header : Bytes, header.length = 46 ∧
      centralRecord offset m ++ rest = header ++ (m.name.encode ++ rest) := by
    refine ⟨_, ?_, by rw [centralRecord, List.append_assoc]⟩
    simp [description]
  have passed : header.drop (46 + m.name.encode.length) = [] :=
    List.drop_of_length_le (by omega)
  rw [Record.read?, central.mark, central.flags, central.method, central.time, central.date,
    central.checksum, central.packed, central.size, central.nameLength, central.extraLength,
    central.commentLength, central.mode, central.start, whole]
  simp [List.drop_append, List.take_append, length, passed, decode_name, Record.extras?]
  rfl

theorem numberAt_localRecord : numberAt (localRecord m ++ rest) 0 4 = localMark ∧
    numberAt (localRecord m ++ rest) 26 2 = m.name.encode.length ∧
      numberAt (localRecord m ++ rest) 28 2 = 0 := by
  have := fits.name
  refine ⟨?_, ?_, ?_⟩ <;>
    simp [localRecord, description, numberAt_skip, numberAt_field, localMark, *]

omit fits in
theorem length_localRecord : (localRecord m).length =
    30 + m.name.encode.length + (Stored.encode m.data).length := by
  simp [localRecord, description]
  omega

variable {archive front : Bytes} (stands : archive = front ++ localRecord m ++ rest)
include stands

theorem content?_record {directory : Nat}
    (before : front.length + (localRecord m).length ≤ directory) :
    (m.record front.length).content? archive directory 0 =
      some (front.length + 30 + m.name.encode.length) := by
  obtain ⟨mark, nameLength, extraLength⟩ := numberAt_localRecord fits rest
  have header : archive.drop front.length = localRecord m ++ rest := by
    rw [stands, List.append_assoc, List.drop_left]
  have length := @length_localRecord m
  simp only [Record.content?, Member.record, Nat.add_zero, header, mark, nameLength, extraLength]
  exact if_pos ⟨by omega, trivial, by omega⟩

omit fits in
theorem entry?_record : Record.entry? archive (m.record front.length)
    (front.length + 30 + m.name.encode.length) = some m.entry := by
  obtain ⟨header, length, whole⟩ : ∃ header : Bytes, header.length = 30 ∧ localRecord m =
      header ++ m.name.encode ++ Stored.encode m.data := by
    refine ⟨_, ?_, localRecord.eq_1 m⟩
    simp [description]
  have packed : (archive.drop (front.length + 30 + m.name.encode.length)).take
      (Stored.encode m.data).length = Stored.encode m.data := by
    have before : (front ++ header ++ m.name.encode).length =
        front.length + 30 + m.name.encode.length := by
      rw [List.length_append, List.length_append, length]
    rw [stands, whole, ← before]
    simp only [← List.append_assoc]
    rw [List.append_assoc _ (Stored.encode m.data), List.drop_left, List.take_left]
  have plain : (nameFlag m.name).testBit 0 = false := by
    rw [nameFlag]
    split <;> decide
  simp [Member.record, Record.entry?, packed, plain, Stored.inflate?_encode, Member.entry]

end Records

/-- The records of members whose local records stand one after another. -/
def placed (start : Nat) : List Member → List (Record × Nat)
  | [] => []
  | m :: rest => (m.record start, start + 30 + m.name.encode.length) ::
      placed (start + (localRecord m).length) rest

theorem enter_of_fresh {r : Record × Nat} {entered : List (Record × Nat)}
    (fresh : r.1.name ∉ entered.map (·.1.name)) : enter r entered = entered ++ [r] := by
  induction entered with
  | nil => rfl
  | cons other entered ih =>
    rw [List.map_cons, List.mem_cons, not_or] at fresh
    rw [enter, if_neg (Ne.symm fresh.1), ih fresh.2, List.cons_append]

section Placed

variable {members : List Member} {archive front back : Bytes}
  (stands : archive = front ++ members.flatMap localRecord ++ back)
include stands

theorem mapM_entry?_placed :
    ((placed front.length members).mapM fun (record, content) => record.entry? archive content) =
      some (members.map Member.entry) := by
  induction members generalizing front with
  | nil => rfl
  | cons m members ih =>
    rw [List.flatMap_cons, ← List.append_assoc] at stands
    have first := entry?_record (members.flatMap localRecord ++ back)
      (stands.trans (List.append_assoc ..))
    have later := ih stands
    rw [List.length_append] at later
    simp only [placed, List.mapM_cons, first, later]
    rfl

variable {directory : Nat} (rest : Bytes)

theorem records?_centralRecords (fits : ∀ m ∈ members, m.Fits)
    (before : front.length + (members.flatMap localRecord).length ≤ directory)
    (near : directory < 4294967296) {entered : List (Record × Nat)}
    (distinct : (entered.map (·.1.name) ++ members.map (·.name)).Nodup) :
    records? archive directory 0 members.length entered
        (centralRecords front.length members ++ rest) =
      some (entered ++ placed front.length members) := by
  -- `front` takes up the local records of the members that are entered, so that the records
  -- that follow stay where the directory says.
  induction members generalizing front entered with
  | nil => rw [placed, List.append_nil]; rfl
  | cons m members ih =>
    obtain ⟨first, later⟩ := List.forall_mem_cons.1 fits
    rw [List.flatMap_cons, List.length_append] at before
    rw [List.flatMap_cons, ← List.append_assoc] at stands
    have whole := stands.trans (List.append_assoc ..)
    have fresh : m.name ∉ entered.map (·.1.name) := by
      rw [List.map_cons] at distinct
      exact fun member => (List.nodup_append'.1 distinct).2.2 member (List.mem_cons_self ..)
    have content : (m.record front.length).content? archive directory 0 = some _ :=
      content?_record first _ whole (by omega)
    have further : ((entered ++ [(m.record front.length,
        front.length + 30 + m.name.encode.length)]).map (·.1.name) ++
          members.map (·.name)).Nodup := by
      simpa [Member.record] using distinct
    have next := ih stands later (by rw [List.length_append]; omega) further
    rw [List.length_append] at next
    rw [centralRecords, List.append_assoc, List.length_cons, records?,
      read?_centralRecord first _ (by omega)]
    simp only [Option.bind_eq_bind, Option.bind_some, content]
    rw [enter_of_fresh fresh, next, placed, List.append_assoc, List.singleton_append]

end Placed

section Marks

variable {mark : Nat} {data : Bytes}

theorem exists_marks_append (place : Nat) (front : Bytes) : ∃ early,
    marks mark place (front ++ data) = early ++ marks mark (place + front.length) data := by
  induction front generalizing place with
  | nil => exact ⟨[], rfl⟩
  | cons b front ih =>
    obtain ⟨early, found⟩ := ih (place + 1)
    rw [List.cons_append, marks, found, List.length_cons, Nat.add_comm front.length,
      ← Nat.add_assoc]
    split
    · exact ⟨place :: early, rfl⟩
    · exact ⟨early, rfl⟩

theorem le_of_mem_marks {place other : Nat} (member : other ∈ marks mark place data) : place ≤ other := by
  induction data generalizing place with
  | nil => cases member
  | cons b data ih =>
    rw [marks] at member
    split at member
    · rcases List.mem_cons.1 member with rfl | later
      · exact Nat.le_refl _
      · exact Nat.le_of_succ_le (ih later)
    · exact Nat.le_of_succ_le (ih member)

theorem marks_of_mark (nonempty : data ≠ []) (marked : numberAt data 0 4 = mark) (place : Nat) :
    ∃ later, marks mark place data = place :: later ∧ ∀ other ∈ later, place < other := by
  obtain ⟨b, rest, rfl⟩ := List.exists_cons_of_ne_nil nonempty
  exact ⟨_, if_pos marked, fun _ => le_of_mem_marks⟩

end Marks

structure IsEnd (data : Bytes) (count start : Nat) : Prop where
  length : data.length = 22
  mark : numberAt data 0 4 = endMark
  disk : numberAt data 4 2 = 0
  startDisk : numberAt data 6 2 = 0
  entries : numberAt data 8 2 = count
  total : numberAt data 10 2 = count
  start : numberAt data 16 4 = start
  comment : numberAt data 20 2 = 0

theorem isEnd_endRecord {count start : Nat} (few : count < 65536) (near : start < 4294967296)
    (size : Nat) : IsEnd (endRecord count size start) count start := by
  constructor <;>
    simp [endRecord, numberAt_skip, numberAt_field, numberAt_field_self, endMark, *]

section End

variable {archive front central ending : Bytes} {count start : Nat}

/-- The directory stands where the end record says, as no byte stands before the archive. -/
theorem directory?_of_isEnd (isEnd : IsEnd ending count front.length)
    (whole : archive = front ++ central ++ ending)
    (aligned : if count = 0 then central = [] else (marks centralMark 0 central).head? = some 0) :
    directory? archive (front ++ central).length =
      records? archive front.length 0 count [] (central ++ ending) := by
  have last : archive.drop (front ++ central).length = ending := by rw [whole, List.drop_left]
  have directory : archive.drop front.length = central ++ ending := by
    rw [whole, List.append_assoc, List.drop_left]
  have inner : (archive.take (front ++ central).length).drop front.length = central := by
    rw [whole, List.take_left, List.drop_left]
  have room : ¬22 < 22 + 0 := by decide
  simp only [directory?, last, isEnd.length, isEnd.disk, isEnd.startDisk, isEnd.entries,
    isEnd.total, isEnd.start, isEnd.comment, inner, if_neg room, if_true]
  split at aligned
  · rename_i none
    rw [if_pos none, aligned, List.append_nil, Nat.sub_self]
    simp only [Option.bind_eq_bind, Option.bind_some, Nat.add_zero, directory, aligned]
  · rename_i many
    rw [if_neg many, aligned]
    simp only [Option.bind_eq_bind, Option.bind_some, Nat.add_zero, directory]

theorem directory?_eq_none {place : Nat} (short : archive.length < place + 22) :
    directory? archive place = none := by
  have cut : (archive.drop place).length < 22 + numberAt (archive.drop place) 20 2 := by
    rw [List.length_drop]
    omega
  rw [directory?, if_pos cut]
  rfl

/-- What looks like a mark in an end record is too close to the end. -/
theorem read?_of_isEnd (isEnd : IsEnd ending count start) (whole : archive = front ++ ending)
    {records : List (Record × Nat)} (found : directory? archive front.length = some records) :
    read? archive = records.mapM fun (record, content) => record.entry? archive content := by
  have length := isEnd.length
  obtain ⟨early, places⟩ := @exists_marks_append endMark ending 0 front
  have nonempty : ending ≠ [] := by
    rintro rfl
    cases length
  obtain ⟨later, last, behind⟩ := marks_of_mark nonempty isEnd.mark (0 + front.length)
  have none : later.reverse.findSome? (directory? archive) = none := by
    rw [List.findSome?_eq_none_iff]
    intro place member
    have := behind place (List.mem_reverse.1 member)
    apply directory?_eq_none
    rw [whole, List.length_append]
    omega
  rw [last, ← whole, Nat.zero_add] at places
  rw [read?, places]
  simp [none, found]

end End

/-- An archive of members whose numbers have room in their fields. -/
structure Fits (members : List Member) (archive : Bytes) : Prop where
  count : members.length < 65536
  size : archive.length < 4294967296
  names : ∀ m ∈ members, m.name.encode.length < 65536
  data : ∀ m ∈ members, m.data.length < 4294967296

/-- A packer whose archives are read as the members that it was given, in their order. -/
def IsFaithful (pack : List Member → Bytes) : Prop :=
  ∀ members, (members.map (·.name)).Nodup → Fits members (pack members) →
    read? (pack members) = some (members.map Member.entry)

section Write

variable {members : List Member}

theorem length_encode_le_write {m : Member} (member : m ∈ members) :
    (Stored.encode m.data).length ≤ (write members).length := by
  obtain ⟨before, after, rfl⟩ := List.append_of_mem member
  simp only [write, localRecord, List.flatMap_append, List.flatMap_cons, List.length_append]
  omega

theorem Fits.member (fits : Fits members (write members)) {m : Member} (member : m ∈ members) :
    m.Fits where
  name := fits.names m member
  packed := Nat.lt_of_le_of_lt (length_encode_le_write member) fits.size
  size := fits.data m member

theorem head?_marks_centralRecords {offset : Nat} (some : members ≠ []) :
    (marks centralMark 0 (centralRecords offset members)).head? = .some 0 := by
  obtain ⟨m, rest, rfl⟩ := List.exists_cons_of_ne_nil some
  have marked : numberAt (centralRecords offset (m :: rest)) 0 4 = centralMark := by
    simp [centralRecords, centralRecord, numberAt_field, centralMark]
  have nonempty : centralRecords offset (m :: rest) ≠ [] := by
    intro none
    rw [none] at marked
    exact absurd marked (by decide)
  obtain ⟨later, found, _⟩ := marks_of_mark nonempty marked 0
  rw [found]
  rfl

/-- What is written is read back. -/
theorem isFaithful_write : IsFaithful write := by
  intro members distinct fits
  have size := fits.size
  rw [write, List.length_append, List.length_append] at size
  have isEnd : IsEnd _ members.length (members.flatMap localRecord).length :=
    isEnd_endRecord fits.count (by omega) (centralRecords 0 members).length
  have aligned : if members.length = 0 then centralRecords 0 members = []
      else (marks centralMark 0 (centralRecords 0 members)).head? = some 0 := by
    split
    · rename_i none
      rw [List.length_eq_zero_iff.1 none]
      rfl
    · rename_i many
      exact head?_marks_centralRecords (mt List.length_eq_zero_iff.2 many)
  have stands : write members = [] ++ members.flatMap localRecord ++ (centralRecords 0 members ++
      endRecord members.length (centralRecords 0 members).length
        (members.flatMap localRecord).length) := List.append_assoc ..
  have found := (directory?_of_isEnd isEnd (write.eq_1 members) aligned).trans
    (records?_centralRecords stands _ (fun m => fits.member) (Nat.le_of_eq (Nat.zero_add _))
      (by omega) distinct)
  rw [read?_of_isEnd isEnd (write.eq_1 members) found]
  exact mapM_entry?_placed stands

end Write

end Bootscript.Archive
