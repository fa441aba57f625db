import Mathlib.Algebra.Ring.Nat
import Mathlib.Data.List.Basic
import Mathlib.Tactic.Common

/-!
# Blocks of bytes

A packed structure in memory is a block of bytes of a fixed size. A field is a slice of it at an offset; what is put at an offset is found there and nowhere before it.
-/

/-- `n` bytes. -/
structure ByteBlock (n : Nat) where
  bytes : List UInt8
  size : bytes.length = n
  deriving DecidableEq

namespace ByteBlock

variable {n : Nat}

def zero : ByteBlock n := ⟨List.replicate n 0, List.length_replicate⟩

variable (block : ByteBlock n) (offset : Nat)

def slice (size : Nat) : List UInt8 := (block.bytes.drop offset).take size

/-- Data over what is at the offset. What does not fit in the block is cut off. -/
def put (data : List UInt8) : ByteBlock n where
  bytes := (block.bytes.take offset ++ data ++ block.bytes.drop (offset + data.length)).take n
  size := by
    have hsize := block.size
    rw [List.length_take, List.length_append, List.length_append, List.length_take, List.length_drop]
    omega

@[ext] theorem ext {block block' : ByteBlock n} (h : block.bytes = block'.bytes) : block = block' := by
  obtain ⟨bytes, size⟩ := block
  cases h
  rfl

theorem slice_put {data : List UInt8} (h : offset + data.length ≤ n) :
    (block.put offset data).slice offset data.length = data := by
  have hsize := block.size
  have hbefore : (block.bytes.take offset).length = offset := by
    rw [List.length_take]
    omega
  rw [slice, put, List.drop_take, List.take_take, Nat.min_eq_left (by omega), List.append_assoc,
    List.drop_append_of_le_length (by omega), List.drop_of_length_le (by omega), List.nil_append,
    List.take_left']
  rfl

theorem take_put (data : List UInt8) (h : offset ≤ n) :
    (block.put offset data).bytes.take offset = block.bytes.take offset := by
  have hsize := block.size
  rw [put, List.take_take, Nat.min_eq_left h, List.append_assoc, List.take_left']
  rw [List.length_take]
  omega

/-- A whole block put over another. -/
theorem put_zero (block' : ByteBlock n) : block.put 0 block'.bytes = block' := by
  ext1
  show (block.bytes.take 0 ++ block'.bytes ++ block.bytes.drop (0 + block'.bytes.length)).take n = _
  rw [List.take_zero, List.nil_append, List.drop_of_length_le (by rw [block.size, block'.size]; omega),
    List.append_nil, List.take_of_length_le (Nat.le_of_eq block'.size)]

/-! ### Byte by byte -/

theorem slice_eq_iff {block block' : ByteBlock n} {offset size : Nat} :
    block.slice offset size = block'.slice offset size ↔
      ∀ i, offset ≤ i → i < offset + size → block.bytes[i]? = block'.bytes[i]? := by
  constructor
  · intro h i hlow hhigh
    have hbyte := congrArg (·[i - offset]?) h
    simp only [slice, List.getElem?_take, List.getElem?_drop] at hbyte
    rwa [if_pos (by omega), if_pos (by omega), Nat.add_sub_cancel' hlow] at hbyte
  · intro h
    apply List.ext_getElem?
    intro i
    simp only [slice, List.getElem?_take, List.getElem?_drop]
    split_ifs
    · exact h (offset + i) (Nat.le_add_right _ _) (by omega)
    · rfl

theorem getElem?_put (data : List UInt8) {i : Nat} (hi : i < n) :
    (block.put offset data).bytes[i]? =
      if offset ≤ i ∧ i < offset + data.length then data[i - offset]? else block.bytes[i]? := by
  have hsize := block.size
  have hbefore : (block.bytes.take offset).length = min offset n := by rw [List.length_take, hsize]
  rw [put, List.getElem?_take, if_pos hi, List.append_assoc]
  split_ifs with hin
  · rw [List.getElem?_append_right (by omega), List.getElem?_append_left (by omega), hbefore]
    congr 1
    omega
  · rcases Nat.lt_or_ge i offset with hlt | hge
    · rw [List.getElem?_append_left (by omega), List.getElem?_take, if_pos hlt]
    · rw [List.getElem?_append_right (by omega), List.getElem?_append_right (by omega), List.getElem?_drop]
      congr 1
      omega

theorem put_nil : block.put offset [] = block := by
  ext1
  show (block.bytes.take offset ++ [] ++ block.bytes.drop (offset + 0)).take n = _
  rw [List.append_nil, Nat.add_zero, List.take_append_drop, List.take_of_length_le (Nat.le_of_eq block.size)]

/-- Data put over data of the same length. -/
theorem put_put {data data' : List UInt8} (h : data.length = data'.length) :
    (block.put offset data).put offset data' = block.put offset data' := by
  ext1
  apply List.ext_getElem?
  intro i
  rcases Nat.lt_or_ge i n with hi | hi
  · rw [getElem?_put _ _ _ hi, getElem?_put _ _ _ hi, getElem?_put _ _ _ hi, h]
    split_ifs <;> rfl
  · rw [List.getElem?_eq_none (by rwa [size]), List.getElem?_eq_none (by rwa [size])]

/-- What is there already. -/
theorem put_slice {data : List UInt8} (h : block.slice offset data.length = data) : block.put offset data = block := by
  ext1
  apply List.ext_getElem?
  intro i
  rcases Nat.lt_or_ge i n with hi | hi
  · rw [getElem?_put _ _ _ hi]
    split_ifs with hin
    · rw [← h, slice, List.getElem?_take, List.getElem?_drop, if_pos (by omega), Nat.add_sub_cancel' hin.1]
    · rfl
  · rw [List.getElem?_eq_none (by rwa [size]), List.getElem?_eq_none (by rwa [size])]

/-- A function that writes the same over these positions whatever was there, and leaves the others. -/
def Overwrites (f : ByteBlock n → ByteBlock n) (positions : Nat → Prop) : Prop :=
  ∀ block block' i, i < n →
    ((f block).bytes[i]? = (f block').bytes[i]? ↔ positions i ∨ block.bytes[i]? = block'.bytes[i]?)

theorem overwrites_put (offset : Nat) (data : List UInt8) :
    Overwrites (n := n) (fun block => block.put offset data) fun i => offset ≤ i ∧ i < offset + data.length := by
  intro block block' i hi
  rw [getElem?_put _ _ _ hi, getElem?_put _ _ _ hi]
  split_ifs with hin
  · exact ⟨fun _ => .inl hin, fun _ => rfl⟩
  · exact ⟨.inr, fun h => h.resolve_left hin⟩

theorem Overwrites.comp {f g : ByteBlock n → ByteBlock n} {positions positions' : Nat → Prop}
    (hg : Overwrites g positions') (hf : Overwrites f positions) :
    Overwrites (fun block => g (f block)) fun i => positions' i ∨ positions i := by
  intro block block' i hi
  rw [hg _ _ i hi, hf block block' i hi, or_assoc]

theorem overwrites_foldl {α : Type*} {f : ByteBlock n → α → ByteBlock n} {positions : α → Nat → Prop} {xs : List α}
    (h : ∀ x ∈ xs, Overwrites (fun block => f block x) (positions x)) :
    Overwrites (fun block => xs.foldl f block) fun i => ∃ x ∈ xs, positions x i := by
  induction xs with
  | nil =>
      intro block block' i hi
      simp
  | cons x xs ih =>
      obtain ⟨hx, hxs⟩ := List.forall_mem_cons.1 h
      intro block block' i hi
      have hboth := (ih hxs).comp hx block block' i hi
      have hpositions : (∃ y ∈ x :: xs, positions y i) ↔ (∃ y ∈ xs, positions y i) ∨ positions x i := by
        rw [List.exists_mem_cons_iff]
        exact Or.comm
      exact hboth.trans (or_congr_left hpositions.symm)

/-! ### Blocks one after another -/

/-- Data over what is at the offset of a sequence of bytes, which it may lengthen. -/
def overwrite (bytes : List UInt8) (offset : Nat) (data : List UInt8) : List UInt8 :=
  bytes.take offset ++ data ++ bytes.drop (offset + data.length)

def concat (blocks : List (ByteBlock n)) : List UInt8 := blocks.flatMap ByteBlock.bytes

theorem length_concat (blocks : List (ByteBlock n)) : (concat blocks).length = blocks.length * n := by
  induction blocks with
  | nil => simp [concat]
  | cons block blocks ih =>
    rw [concat, List.flatMap_cons, List.length_append, block.size, ← concat, ih, List.length_cons, Nat.succ_mul]
    omega

theorem concat_append (blocks blocks' : List (ByteBlock n)) :
    concat (blocks ++ blocks') = concat blocks ++ concat blocks' := List.flatMap_append

theorem take_concat (blocks : List (ByteBlock n)) (i : Nat) : (concat blocks).take (i * n) = concat (blocks.take i) := by
  by_cases h : i ≤ blocks.length
  · have hlength : (concat (blocks.take i)).length = i * n := by rw [length_concat, List.length_take_of_le h]
    conv_lhs => rw [← List.take_append_drop i blocks, concat_append]
    exact List.take_left' hlength
  · have hle : blocks.length ≤ i := by omega
    rw [List.take_of_length_le hle, List.take_of_length_le]
    rw [length_concat]
    exact Nat.mul_le_mul_right n hle

theorem drop_concat (blocks : List (ByteBlock n)) (i : Nat) : (concat blocks).drop (i * n) = concat (blocks.drop i) := by
  have hblocks : concat (blocks.take i) ++ concat (blocks.drop i) = concat blocks := by
    rw [← concat_append, List.take_append_drop]
  have hbytes := List.take_append_drop (i * n) (concat blocks)
  rw [take_concat] at hbytes
  exact List.append_cancel_left (hbytes.trans hblocks.symm)

/-- The block at a multiple of the block size. -/
theorem slice_concat {blocks : List (ByteBlock n)} {i : Nat} {block : ByteBlock n} (h : blocks[i]? = some block) :
    ((concat blocks).drop (i * n)).take n = block.bytes := by
  obtain ⟨hi, rfl⟩ := List.getElem?_eq_some_iff.1 h
  rw [drop_concat, List.drop_eq_getElem_cons hi, concat, List.flatMap_cons]
  exact List.take_left' blocks[i].size

/-- A block written over the one at its place. -/
theorem overwrite_concat {blocks : List (ByteBlock n)} {i : Nat} (h : i < blocks.length) (block : ByteBlock n) :
    overwrite (concat blocks) (i * n) block.bytes = concat (blocks.set i block) := by
  have hnext : i * n + block.bytes.length = (i + 1) * n := by rw [block.size, Nat.succ_mul]
  rw [overwrite, hnext, take_concat, drop_concat, List.set_eq_take_append_cons_drop, if_pos h, concat_append,
    List.append_assoc]
  rfl

end ByteBlock

/-! ### Little-endian words -/

namespace LittleEndian

def encode (x : UInt32) : List UInt8 :=
  [.ofNat x.toNat, .ofNat (x.toNat / 2 ^ 8), .ofNat (x.toNat / 2 ^ 16), .ofNat (x.toNat / 2 ^ 24)]

def decode : List UInt8 → UInt32
  | [a, b, c, d] => .ofNat (a.toNat + 2 ^ 8 * b.toNat + 2 ^ 16 * c.toNat + 2 ^ 24 * d.toNat)
  | _ => 0

theorem decode_encode (x : UInt32) : decode (encode x) = x := by
  apply UInt32.toNat_inj.1
  have hx := x.toNat_lt
  simp only [encode, decode, UInt32.toNat_ofNat', UInt8.toNat_ofNat']
  omega

theorem encode_decode (a b c d : UInt8) : encode (decode [a, b, c, d]) = [a, b, c, d] := by
  have ha := a.toNat_lt
  have hb := b.toNat_lt
  have hc := c.toNat_lt
  have hd := d.toNat_lt
  have hword : (decode [a, b, c, d]).toNat = a.toNat + 2 ^ 8 * b.toNat + 2 ^ 16 * c.toNat + 2 ^ 24 * d.toNat := by
    rw [decode, UInt32.toNat_ofNat']
    omega
  simp only [encode, hword, List.cons.injEq, and_true]
  refine ⟨?_, ?_, ?_, ?_⟩ <;> apply UInt8.toNat_inj.1 <;> rw [UInt8.toNat_ofNat'] <;> omega

def encode16 (x : UInt16) : List UInt8 := [.ofNat x.toNat, .ofNat (x.toNat / 2 ^ 8)]

def decode16 : List UInt8 → UInt16
  | [a, b] => .ofNat (a.toNat + 2 ^ 8 * b.toNat)
  | _ => 0

theorem decode16_encode16 (x : UInt16) : decode16 (encode16 x) = x := by
  apply UInt16.toNat_inj.1
  have hx := x.toNat_lt
  simp only [encode16, decode16, UInt16.toNat_ofNat', UInt8.toNat_ofNat']
  omega

theorem encode16_decode16 (a b : UInt8) : encode16 (decode16 [a, b]) = [a, b] := by
  have ha := a.toNat_lt
  have hb := b.toNat_lt
  have hword : (decode16 [a, b]).toNat = a.toNat + 2 ^ 8 * b.toNat := by
    rw [decode16, UInt16.toNat_ofNat']
    omega
  simp only [encode16, hword, List.cons.injEq, and_true]
  refine ⟨?_, ?_⟩ <;> apply UInt8.toNat_inj.1 <;> rw [UInt8.toNat_ofNat'] <;> omega

def encode64 (x : UInt64) : List UInt8 := encode (.ofNat x.toNat) ++ encode (.ofNat (x.toNat / 2 ^ 32))

def decode64 (bytes : List UInt8) : UInt64 :=
  .ofNat ((decode (bytes.take 4)).toNat + 2 ^ 32 * (decode (bytes.drop 4)).toNat)

theorem length_encode64 (x : UInt64) : (encode64 x).length = 8 := rfl

theorem decode64_encode64 (x : UInt64) : decode64 (encode64 x) = x := by
  apply UInt64.toNat_inj.1
  have hx := x.toNat_lt
  have hlow : (encode64 x).take 4 = encode (.ofNat x.toNat) := rfl
  have hhigh : (encode64 x).drop 4 = encode (.ofNat (x.toNat / 2 ^ 32)) := rfl
  rw [decode64, hlow, hhigh, decode_encode, decode_encode]
  simp only [UInt64.toNat_ofNat', UInt32.toNat_ofNat']
  omega

end LittleEndian
