import Bootscript.Archive.Deflate.Stream

/-! Writing the compressed data format of zip members. Only stored blocks are written: a
header byte that tells whether the block is the last, its length, the complement of its
length, and the bytes as they are. Every text that is written is read back. -/
namespace Bootscript.Archive.Stored

open Bootscript.Archive.Deflate

def capacity : Nat := 65535

def block (last : Bool) (data : Bytes) : Bytes :=
  (if last then 1 else 0) :: field 2 data.length ++ field 2 (capacity - data.length) ++ data

def encode (data : Bytes) : Bytes :=
  if _ : data.length ≤ capacity then block true data
  else block false (data.take capacity) ++ encode (data.drop capacity)
termination_by data.length
decreasing_by
  rename_i h
  simp [capacity] at h ⊢
  omega

theorem length_block (last : Bool) (data : Bytes) : (block last data).length = data.length + 5 := by
  simp [block]
  omega

/-- A block is read as its bytes, and the stream goes on unless it was the last. -/
theorem blocks_block (limit fuel : Nat) (last : Bool) (data rest : Bytes) (output : Array UInt8)
    (fits : data.length ≤ capacity) :
    blocks limit (fuel + 1) ⟨block last data ++ rest, 0, output⟩ =
      if last then .ok () ⟨rest, 0, output ++ data⟩
      else blocks limit fuel ⟨rest, 0, output ++ data⟩ := by
  have length : number (field 2 data.length) = data.length := by
    rw [number_field]
    exact Nat.mod_eq_of_lt (Nat.lt_of_le_of_lt fits (by decide))
  have complement : number (field 2 (capacity - data.length)) = capacity - data.length := by
    rw [number_field, Nat.mod_eq_of_lt (Nat.lt_of_le_of_lt (Nat.sub_le _ _) (by decide))]
  have sum : number (field 2 data.length) + number (field 2 (capacity - data.length)) = 65535 := by
    rw [length, complement]
    exact Nat.add_sub_cancel' fits
  have body := fun b => stored_append (length_field 2 _) (length_field 2 _) length sum b 3
    (by decide) rest output
  cases last <;>
    simp [blocks, block, bits, bit_cons, bind_apply, body]

theorem blocks_encode (limit : Nat) (data : Bytes) (fuel : Nat) (output : Array UInt8)
    (enough : data.length < fuel) :
    blocks limit fuel ⟨encode data, 0, output⟩ = .ok () ⟨[], 0, output ++ data⟩ := by
  fun_induction encode data generalizing fuel output with
  | case1 data fits =>
    obtain ⟨fuel, rfl⟩ := Nat.exists_eq_succ_of_ne_zero (Nat.ne_of_gt (Nat.zero_lt_of_lt enough))
    simpa using blocks_block limit fuel true data [] output fits
  | case2 data long ih =>
    obtain ⟨fuel, rfl⟩ := Nat.exists_eq_succ_of_ne_zero (Nat.ne_of_gt (Nat.zero_lt_of_lt enough))
    have fits : (data.take capacity).length ≤ capacity := List.length_take_le _ _
    have shorter : (data.drop capacity).length < fuel := by
      simp [capacity] at long ⊢
      omega
    rw [Nat.succ_eq_add_one, blocks_block limit fuel false _ _ output fits]
    simp only [Bool.false_eq_true, if_false]
    rw [ih _ _ shorter]
    rw [show output ++ data.take capacity ++ data.drop capacity = output ++ data from
      Array.ext' (by simp)]

theorem length_le_length_encode (data : Bytes) : data.length ≤ (encode data).length := by
  fun_induction encode data with
  | case1 data fits => simp [length_block]
  | case2 data long ih =>
    simp [length_block] at ih ⊢
    omega

/-- What is written is read back. -/
theorem inflate?_encode (data : Bytes) : inflate? (encode data) = some data := by
  have enough : data.length < 8 * (encode data).length + 1 := by
    have := length_le_length_encode data
    omega
  simp [inflate?, EStateM.run, blocks_encode _ data _ _ enough]

end Bootscript.Archive.Stored
