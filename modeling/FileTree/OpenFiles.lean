import FileTree.Syscall.Error

/-!
# Open files

A process names its open files by descriptors.  The numbers 0, 1 and 2 belong to keyboard and
console and never stand in the table; a new file gets the lowest number from 3 on that is free.
An open file is an entry, the generation of the entry's slot at that time, and a position.

## Main definitions

* `OpenFiles`: the open files by descriptor, in ascending order
* `OpenFiles.find?`: the open file with a given descriptor
* `OpenFiles.acquire`, `OpenFiles.close`, `OpenFiles.seek`: the changes
-/

namespace FileTree

/-- An open file. -/
structure OpenFile where
  entry : EntryId
  /-- The generation of the entry's slot when the file was opened. -/
  generation : UInt32
  /-- Where the next read or write takes place. -/
  offset : Nat
  deriving DecidableEq

/-- The open files of a process, by ascending descriptor. -/
structure OpenFiles where
  files : List (Descriptor × OpenFile) := []
  deriving DecidableEq

namespace OpenFiles

/-- How many descriptor numbers there are, the standard ones included. -/
def limit : Nat := 256

/-- The first number that is handed out. -/
def firstNumber : Nat := 3

/-- The number of open files. -/
def size (t : OpenFiles) : Nat :=
  t.files.length

/-- The open file with the given descriptor. -/
def find? (t : OpenFiles) (fd : Descriptor) : Option OpenFile :=
  t.files.lookup fd

/-- The first number from `candidate` on that an ascending list of descriptors leaves out. -/
def firstGap (candidate : Nat) : List (Descriptor × OpenFile) → Nat
  | [] => candidate
  | (fd, _) :: rest =>
    if fd.number.toNat = candidate then firstGap (candidate + 1) rest else candidate

/-- A file put into an ascending list under its descriptor. -/
def insert (fd : Descriptor) (file : OpenFile) :
    List (Descriptor × OpenFile) → List (Descriptor × OpenFile)
  | [] => [(fd, file)]
  | p :: rest =>
    if fd.number < p.1.number then (fd, file) :: p :: rest else p :: insert fd file rest

/-- Opens an entry at its start, on the lowest free descriptor. -/
def acquire (t : OpenFiles) (entry : EntryId) (generation : UInt32) :
    Except SyscallError (Descriptor × OpenFiles) :=
  let number := firstGap firstNumber t.files
  if number ≥ limit then .error (.tooManyOpenFiles limit)
  else
    let fd : Descriptor := ⟨number.toUInt32⟩
    .ok (fd, ⟨insert fd ⟨entry, generation, 0⟩ t.files⟩)

/-- Closes a descriptor.  The answer has the file that was open. -/
def close (t : OpenFiles) (fd : Descriptor) : Except SyscallError (OpenFile × OpenFiles) :=
  match t.find? fd with
  | none => .error (.badDescriptor fd)
  | some file => .ok (file, ⟨t.files.filter (·.1 != fd)⟩)

/-- The table with the position of one file moved. -/
def seek (t : OpenFiles) (fd : Descriptor) (offset : Nat) : OpenFiles :=
  ⟨t.files.map fun p => if p.1 = fd then (p.1, { p.2 with offset := offset }) else p⟩

@[simp] theorem size_seek (t : OpenFiles) (fd : Descriptor) (offset : Nat) :
    (t.seek fd offset).size = t.size := by
  simp [size, seek]

/-- Moving the position of one file leaves the others alone. -/
theorem find?_seek (t : OpenFiles) (fd other : Descriptor) (offset : Nat) :
    (t.seek fd offset).find? other =
      if other = fd then (t.find? other).map fun f => { f with offset := offset }
      else t.find? other := by
  simp only [find?, seek]
  induction t.files with
  | nil => simp
  | cons p rest ih =>
    obtain ⟨key, file⟩ := p
    by_cases hk : key = fd <;> by_cases ho : other = key <;>
      simp_all [List.lookup_cons] <;> grind

end OpenFiles

end FileTree
