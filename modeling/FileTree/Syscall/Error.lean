import FileTree.StoreError

/-!
# Why a system call fails

A failed call has a text, and an error number that the raw interface returns negated.

## Main definitions

* `Errno`: the error numbers
* `SyscallError`: the causes, with `SyscallError.errno` and `SyscallError.message`
-/

namespace FileTree

/-- The error numbers of the raw interface. -/
inductive Errno where
  /-- Operation not permitted. -/
  | perm
  /-- No such file or directory. -/
  | noEnt
  /-- Bad descriptor. -/
  | badF
  /-- Out of memory. -/
  | noMem
  /-- File exists. -/
  | exist
  /-- Not a directory. -/
  | notDir
  /-- Is a directory. -/
  | isDir
  /-- Invalid argument. -/
  | inval
  /-- Too many open files. -/
  | mFile
  /-- No space left. -/
  | noSpc
  deriving DecidableEq

/-- The positive number of an error. -/
def Errno.code : Errno → Nat
  | perm => 1
  | noEnt => 2
  | badF => 9
  | noMem => 12
  | exist => 17
  | notDir => 20
  | isDir => 21
  | inval => 22
  | mFile => 24
  | noSpc => 28

/-- Why a system call fails. -/
inductive SyscallError where
  /-- The store refuses. -/
  | store (cause : StoreError)
  /-- The descriptor is not open, or not open in this direction. -/
  | badDescriptor (fd : Descriptor)
  /-- Every descriptor number is taken. -/
  | tooManyOpenFiles (limit : Nat)
  /-- The request makes no sense. -/
  | invalidArgument (detail : String)
  deriving DecidableEq

namespace SyscallError

/-- The text of a failure. -/
def message : SyscallError → String
  | .store cause => cause.message
  | .badDescriptor fd => s!"Bad file descriptor: {fd}"
  | .tooManyOpenFiles limit => s!"Too many open files ({limit})"
  | .invalidArgument detail => s!"Invalid argument: {detail}"

/-- The error number of a refusal by the store. -/
def errnoOfStore : StoreError → Errno
  | .notFound _ => .noEnt
  | .notADirectory _ => .notDir
  | .notAFile _ => .isDir
  | .cannotDeleteRoot | .cannotRenameRoot => .perm
  | .tableFull _ | .directoryFull _ _ => .noSpc
  | .alreadyExists _ => .exist
  | .allocation _ => .noMem
  | .invalidId _ | .invalidName _ | .config _ | .corrupted _ => .inval

/-- The error number of a failure. -/
def errno : SyscallError → Errno
  | .store cause => errnoOfStore cause
  | .badDescriptor _ => .badF
  | .tooManyOpenFiles _ => .mFile
  | .invalidArgument _ => .inval

/-- What the raw interface returns for a failure: the negated error number. -/
def returnCode (e : SyscallError) : Int :=
  -(e.errno.code : Int)

/-- A failure is a negative return code. -/
theorem returnCode_neg (e : SyscallError) : e.returnCode < 0 := by
  have h : 0 < e.errno.code := by cases e.errno <;> decide
  simp only [returnCode]
  omega

end SyscallError

end FileTree
