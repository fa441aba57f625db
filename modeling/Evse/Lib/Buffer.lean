import Evse.Lib.CString
import Mathlib.Logic.Function.Basic

/-!
# Writing to a buffer

The memory from the beginning of a buffer on, with the places that a function has written to. The memory does not end where the buffer does, so a function that writes behind its buffer can be seen to do so.
-/

/-- What has become of the memory, where it is another one only at the places written to. -/
structure Buffer (memory : Nat → UInt8) where
  byte : Nat → UInt8
  written : List Nat
  unwritten : ∀ i, i ∉ written → byte i = memory i

namespace Buffer

variable {memory : Nat → UInt8}

/-- The memory as the function finds it. -/
def found (memory : Nat → UInt8) : Buffer memory where
  byte := memory
  written := []
  unwritten _ _ := rfl

section Operations

variable (b : Buffer memory)

def put (i : Nat) (c : UInt8) : Buffer memory where
  byte := Function.update b.byte i c
  written := b.written ++ [i]
  unwritten := by
    intro j hj
    rw [List.mem_append, not_or, List.mem_singleton] at hj
    rw [Function.update_of_ne hj.2]
    exact b.unwritten j hj.1

/-- One byte after another. -/
def putAll : Buffer memory → Nat → List UInt8 → Buffer memory
  | b, _, [] => b
  | b, i, c :: rest => putAll (b.put i c) (i + 1) rest

/-- `strncpy` writes so many bytes, zeros where the text is shorter. -/
def strncpy (i : Nat) (text : CString.Text) (n : Nat) : Buffer memory :=
  b.putAll i (text.take n ++ List.replicate (n - text.length) 0)

/-- The first bytes. -/
def front (n : Nat) : List UInt8 := (List.range n).map b.byte

/-- All writes were to a buffer of this size. -/
def Within (size : Nat) : Prop := ∀ i ∈ b.written, i < size

end Operations

variable {b : Buffer memory} {i n size : Nat} {c : UInt8} {bytes text : List UInt8}

theorem within_found (size : Nat) : (found memory).Within size := fun _ hi => absurd hi List.not_mem_nil

theorem Within.unchanged (h : b.Within size) (hi : size ≤ i) : b.byte i = memory i :=
  b.unwritten i fun hmem => Nat.not_lt.2 hi (h i hmem)

theorem within_put : (b.put i c).Within size ↔ b.Within size ∧ i < size := by
  rw [Within, put, List.forall_mem_append, List.forall_mem_singleton]
  exact Iff.rfl

theorem Within.putAll (h : b.Within size) (hfits : i + bytes.length ≤ size) : (b.putAll i bytes).Within size := by
  induction bytes generalizing b i with
  | nil => exact h
  | cons c rest ih =>
      rw [List.length_cons] at hfits
      exact ih (within_put.2 ⟨h, by omega⟩) (by omega)

theorem Within.strncpy (h : b.Within size) (hfits : i + n ≤ size) : (b.strncpy i text n).Within size := by
  refine h.putAll ?_
  rw [List.length_append, List.length_take, List.length_replicate]
  omega

/-! ### The first bytes -/

theorem length_front (n : Nat) : (b.front n).length = n := by rw [front, List.length_map, List.length_range]

theorem front_succ (n : Nat) : b.front (n + 1) = b.front n ++ [b.byte n] := by
  rw [front, List.range_succ, List.map_append]
  rfl

theorem front_congr {b' : Buffer memory} (h : ∀ i < n, b'.byte i = b.byte i) : b'.front n = b.front n :=
  List.map_congr_left fun i hi => h i (List.mem_range.1 hi)

@[simp] theorem byte_put_self : (b.put i c).byte i = c := by
  show Function.update b.byte i c i = c
  rw [Function.update_self]

theorem byte_put_of_ne {j : Nat} (h : j ≠ i) : (b.put i c).byte j = b.byte j := by
  show Function.update b.byte i c j = b.byte j
  rw [Function.update_of_ne h]

theorem front_put (h : n ≤ i) : (b.put i c).front n = b.front n :=
  front_congr fun _ hj => byte_put_of_ne (Nat.ne_of_lt (Nat.lt_of_lt_of_le hj h))

theorem front_put_succ : (b.put i c).front (i + 1) = b.front i ++ [c] := by
  rw [front_succ, front_put (Nat.le_refl i), byte_put_self]

theorem byte_putAll_of_lt {j : Nat} (h : j < i) : (b.putAll i bytes).byte j = b.byte j := by
  induction bytes generalizing b i with
  | nil => rfl
  | cons c rest ih =>
      rw [putAll, ih (Nat.lt_succ_of_lt h)]
      exact byte_put_of_ne (Nat.ne_of_lt h)

theorem front_putAll {k : Nat} (hk : k ≤ bytes.length) :
    (b.putAll i bytes).front (i + k) = b.front i ++ bytes.take k := by
  induction bytes generalizing b i k with
  | nil =>
      rw [List.length_nil, Nat.le_zero] at hk
      rw [hk, List.take_zero, List.append_nil]
      rfl
  | cons c rest ih =>
      cases k with
      | zero =>
          rw [List.take_zero, List.append_nil]
          exact front_congr fun _ hj => byte_putAll_of_lt hj
      | succ k =>
          rw [List.length_cons] at hk
          rw [putAll, Nat.add_comm k 1, ← Nat.add_assoc, ih (by omega), front_put_succ, Nat.add_comm 1 k,
            List.take_succ_cons, List.append_assoc]
          rfl

/-- Behind what is there, as much of a text as it was asked for is there too. -/
theorem front_strncpy {k : Nat} (hk : k ≤ n) (htext : k ≤ text.length) :
    (b.strncpy i text n).front (i + k) = b.front i ++ text.take k := by
  have hlength : k ≤ (text.take n ++ List.replicate (n - text.length) 0).length := by
    rw [List.length_append, List.length_take, List.length_replicate]
    omega
  have htake : (text.take n).take k = text.take k := by rw [List.take_take, Nat.min_eq_left hk]
  rw [strncpy, front_putAll hlength, List.take_append_of_le_length, htake]
  rw [List.length_take]
  exact Nat.le_min.2 ⟨hk, htext⟩

end Buffer
