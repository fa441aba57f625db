import Mathlib.Data.List.Basic

/-!
# Ring buffers

A ring buffer is a queue over a fixed array: what it holds, and where in the array it is being read. The array matters to a reader through a pointer, who sees the content only up to the end of the array; draining it takes as many looks as the content has pieces.
-/

/-- A queue of at most `capacity` elements whose first is at `readIndex` modulo the capacity. -/
structure RingBuffer (α : Type*) where
  capacity : Nat
  readIndex : Nat
  content : List α
  fits : content.length ≤ capacity

namespace RingBuffer

variable {α : Type*}

def create (capacity : Nat) : RingBuffer α := ⟨capacity, 0, [], Nat.zero_le capacity⟩

variable (ring : RingBuffer α)

def length : Nat := ring.content.length

/-- Append as much as there is room for. -/
def write (data : List α) : RingBuffer α :=
  { ring with
    content := ring.content ++ data.take (ring.capacity - ring.content.length)
    fits := by
      have hfits := ring.fits
      rw [List.length_append, List.length_take]
      omega }

/-- Take the first `n` elements away. -/
def consume (n : Nat) : RingBuffer α :=
  { ring with
    readIndex := ring.readIndex + min n ring.content.length
    content := ring.content.drop n
    fits := by
      have hfits := ring.fits
      rw [List.length_drop]
      omega }

/-- A copy of the first `n` elements, which stay. -/
def peek (n : Nat) : List α := ring.content.take n

/-- Any other content and place in the same array. -/
def scramble (content : List α) (readIndex : Nat) : RingBuffer α :=
  { ring with
    readIndex := readIndex
    content := content.take ring.capacity
    fits := by
      rw [List.length_take]
      omega }

/-- The content up to the end of the array. -/
def contiguous : List α := ring.content.take (ring.capacity - ring.readIndex % ring.capacity)

@[simp] theorem write_capacity (data : List α) : (ring.write data).capacity = ring.capacity := rfl
@[simp] theorem consume_content (n : Nat) : (ring.consume n).content = ring.content.drop n := rfl

theorem consume_zero : ring.consume 0 = ring := by
  obtain ⟨capacity, readIndex, content, fits⟩ := ring
  simp [consume]

theorem consume_consume {n : Nat} (h : n ≤ ring.content.length) (m : Nat) :
    (ring.consume n).consume m = ring.consume (n + m) := by
  obtain ⟨capacity, readIndex, content, fits⟩ := ring
  simp only [consume, List.drop_drop, List.length_drop, mk.injEq, true_and, and_true]
  simp only at h
  omega

theorem contiguous_length_le : ring.contiguous.length ≤ ring.content.length := by
  rw [contiguous, List.length_take]
  exact Nat.min_le_right _ _

/-- What is shown is the front of the content. -/
theorem contiguous_eq_take : ring.contiguous = ring.content.take ring.contiguous.length := by
  rw [contiguous, List.length_take, List.take_eq_take_min]

theorem write_content {data : List α} (h : ring.content.length + data.length ≤ ring.capacity) :
    (ring.write data).content = ring.content ++ data := by
  show ring.content ++ data.take (ring.capacity - ring.content.length) = ring.content ++ data
  rw [List.take_of_length_le]
  omega

/-- What is shown is followed by what consuming it leaves. -/
theorem contiguous_append_drop :
    ring.contiguous ++ ring.content.drop ring.contiguous.length = ring.content :=
  (List.prefix_iff_eq_append.1 (List.take_prefix _ ring.content))

/-- A buffer that is not empty shows at least one element. -/
theorem contiguous_ne_nil (h : ring.content ≠ []) : 0 < ring.contiguous.length := by
  have hlength : 0 < ring.content.length := List.length_pos_iff.mpr h
  have hfits := ring.fits
  have hindex := Nat.mod_lt ring.readIndex (show 0 < ring.capacity by omega)
  rw [contiguous, List.length_take]
  omega

end RingBuffer
