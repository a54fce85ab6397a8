/-!
# The heap

A heap hands out zero-filled buffers, each under a handle of its own, and keeps the books: which
handles are out and with which size, and four counters.  A heap may have a byte limit, and may
refuse every release.

## Main definitions

* `Buffer`: a handle, a capacity and the bytes written at the start; the rest is zero
* `Buffer.bytes`: the whole content of a buffer
* `Buffer.fill`, `Buffer.first`: writing at the start, and reading from it
* `Heap`: the books of a heap
* `Heap.allocate`, `Heap.release`: handing out a buffer and taking one back

## Main results

* `Buffer.length_bytes`, `Buffer.bytes_fill`, `Buffer.first_eq`: a buffer's operations on its
  content
-/

namespace FileTree

/-- A buffer: the bytes written at its start, followed by zeros up to its capacity. -/
structure Buffer where
  handle : Nat
  capacity : Nat
  written : List UInt8
  length_written_le : written.length ≤ capacity
  deriving DecidableEq

namespace Buffer

/-- A buffer of zeros. -/
def zeros (handle capacity : Nat) : Buffer :=
  ⟨handle, capacity, [], Nat.zero_le _⟩

/-- The whole content of a buffer. -/
def bytes (b : Buffer) : List UInt8 :=
  b.written ++ List.replicate (b.capacity - b.written.length) 0

/-- The buffer with `data` written over its start, as far as it fits. -/
def fill (b : Buffer) (data : List UInt8) : Buffer where
  handle := b.handle
  capacity := b.capacity
  written := data.take b.capacity ++ b.written.drop data.length
  length_written_le := by
    have := b.length_written_le
    simp only [List.length_append, List.length_take, List.length_drop]
    omega

/-- The first `n` bytes of a buffer, or all of them when there are fewer. -/
def first (b : Buffer) (n : Nat) : List UInt8 :=
  if n = b.written.length then b.written
  else b.written.take n ++ List.replicate (min n b.capacity - b.written.length) 0

@[simp] theorem bytes_zeros (handle capacity : Nat) :
    (zeros handle capacity).bytes = List.replicate capacity 0 := by
  simp [zeros, bytes]

@[simp] theorem handle_fill (b : Buffer) (data : List UInt8) : (b.fill data).handle = b.handle :=
  rfl

@[simp] theorem capacity_fill (b : Buffer) (data : List UInt8) :
    (b.fill data).capacity = b.capacity := rfl

/-- A buffer holds exactly its capacity. -/
@[simp] theorem length_bytes (b : Buffer) : b.bytes.length = b.capacity := by
  have := b.length_written_le
  simp only [bytes, List.length_append, List.length_replicate]
  omega

/-- Filling replaces the start of the content and keeps the rest. -/
theorem bytes_fill (b : Buffer) (data : List UInt8) :
    (b.fill data).bytes = data.take b.capacity ++ b.bytes.drop data.length := by
  have := b.length_written_le
  simp only [bytes, fill, List.drop_append, List.append_assoc, List.drop_replicate,
    List.length_append, List.length_take, List.length_drop]
  congr 3
  omega

/-- The first bytes of a buffer are those of its content. -/
theorem first_eq (b : Buffer) (n : Nat) : b.first n = b.bytes.take n := by
  have := b.length_written_le
  simp only [first, bytes, List.take_append, List.take_replicate]
  split
  · subst n
    simp
  · congr 2
    omega

end Buffer

/-- Why a heap refuses. -/
inductive HeapError where
  | outOfMemory (requested available : Nat)
  | unknownBuffer (handle : Nat)
  deriving DecidableEq

/-- The text of a refusal. -/
def HeapError.message : HeapError → String
  | .outOfMemory requested available =>
    s!"Out of memory: requested {requested} bytes, {available} available"
  | .unknownBuffer handle => s!"Unknown buffer handle: {handle}"

/-- The counters of a heap. -/
structure HeapStats where
  /-- Buffers that are out. -/
  liveBuffers : Nat := 0
  /-- Bytes that are out. -/
  bytesInUse : Nat := 0
  /-- Buffers ever handed out. -/
  totalAllocations : Nat := 0
  /-- Buffers ever taken back. -/
  totalReleases : Nat := 0
  deriving DecidableEq

/-- The books of a heap. -/
structure Heap where
  /-- The handles that are out, each with its size, the last one first. -/
  live : List (Nat × Nat) := []
  /-- The handle of the next buffer. -/
  nextHandle : Nat := 0
  /-- The most bytes that may be out at a time. -/
  limit : Option Nat := none
  /-- Whether every release is refused. -/
  refusesReleases : Bool := false
  stats : HeapStats := {}
  deriving DecidableEq

namespace Heap

/-- The bytes that may still be handed out; `none` when there is no limit. -/
def available (h : Heap) : Option Nat :=
  h.limit.map (· - h.stats.bytesInUse)

/-- The heap after handing out a buffer of `size` bytes. -/
def lend (h : Heap) (size : Nat) : Heap :=
  { h with
    live := (h.nextHandle, size) :: h.live
    nextHandle := h.nextHandle + 1
    stats := { h.stats with
      liveBuffers := h.stats.liveBuffers + 1
      bytesInUse := h.stats.bytesInUse + size
      totalAllocations := h.stats.totalAllocations + 1 } }

/-- Hands out a buffer of `size` zeros; a refusal leaves the books as they are. -/
def allocate (h : Heap) (size : Nat) : Except HeapError (Buffer × Heap) :=
  match h.available with
  | some available =>
    if size > available then .error (.outOfMemory size available)
    else .ok (Buffer.zeros h.nextHandle size, h.lend size)
  | none => .ok (Buffer.zeros h.nextHandle size, h.lend size)

/-- Takes a buffer back; a refusal leaves the books as they are. -/
def release (h : Heap) (b : Buffer) : Except HeapError Heap :=
  if h.refusesReleases then .error (.unknownBuffer b.handle)
  else
    match h.live.lookup b.handle with
    | none => .error (.unknownBuffer b.handle)
    | some size =>
      .ok { h with
        live := h.live.filter (·.1 != b.handle)
        stats := { h.stats with
          liveBuffers := h.stats.liveBuffers - 1
          bytesInUse := h.stats.bytesInUse - size
          totalReleases := h.stats.totalReleases + 1 } }

end Heap

end FileTree
