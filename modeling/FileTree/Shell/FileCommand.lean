import FileTree.ByPath
import FileTree.Syscall.Error
import FileTree.Text.Decimal

/-!
# Commands on files

The commands of the shell that act on the store, with their answers as text.

## Main definitions

* `FileCommand`: a command with its operands
* `FileCommand.run`: carries out a command
* `CommandError`: why a line has no answer but a message
-/

namespace FileTree

/-- Why a command line ends in a message. -/
inductive CommandError where
  /-- The store refuses the command. -/
  | refused (command : String) (cause : OperationError)
  /-- The system refuses the command. -/
  | failed (command : String) (cause : SyscallError)
  /-- An operand is to be a number and is not. -/
  | notANumber (command operand : String)
  /-- The command needs an operand. -/
  | missingOperand (command : String)
  /-- The command needs two operands. -/
  | twoOperandsExpected (command : String)
  /-- There is no such command. -/
  | unknownCommand (command : String)
  deriving DecidableEq

/-- The text of a message. -/
def CommandError.message : CommandError → String
  | .refused command cause => s!"{command} failed: " ++ cause.message
  | .failed command cause => s!"{command} failed: " ++ cause.message
  | .notANumber command operand => s!"{command} failed: not a number: {operand}"
  | .missingOperand command => s!"{command}: missing operand"
  | .twoOperandsExpected command => s!"{command}: expected two operands"
  | .unknownCommand command =>
    s!"Unknown command: {command}\nType 'help' for a list of commands."

/-- A command on files with its operands. -/
inductive FileCommand where
  | ls (path : String)
  | mkdir (path : String)
  | cd (path : String)
  | pwd
  | cat (path : String)
  | touch (path : String)
  | write (path text : String)
  | rm (path : String)
  | mv (path newName : String)
  | cp (source destination : String)
  | find (pattern : String)
  | du (path : String)
  | stat (path : String)
  | log (count : String)
  deriving DecidableEq

namespace FileCommand

/-- The log lines shown when no number is given. -/
def defaultLogLines : Nat := 10

/-- The texts with a line feed between them. -/
def joinLines (lines : List String) : String :=
  "\n".intercalate lines

/-- One line of a directory listing. -/
def listingLine (l : Listing) : String :=
  match l.kind with
  | .directory => l.name ++ "/"
  | .file => l.name ++ "  " ++ toString l.size

/-- What is known of an entry, as text. -/
def statText (s : Stat) : String :=
  "Path: " ++ s.path ++ "\n" ++ s!"Entry: {s.id}\nKind: {s.kind}\nParent: {s.parent}\n" ++
    match s.entryCount with
    | some count => s!"Entries: {count}"
    | none => s!"Size: {s.size} bytes (capacity {s.capacity})"

/-- The space that a subtree takes, as text. -/
def usageText (u : Usage) : String :=
  s!"{u.bytes} bytes in {u.files} files, {u.directories} directories"

/-- The last lines of the log of a store. -/
def logTail (s : Store) (count : Nat) : String :=
  let lines := s.log.lines
  joinLines (lines.drop (lines.length - count))

/-- The number of log lines asked for. -/
def logCount? (count : String) : Option Nat :=
  if count.isEmpty then some defaultLogLines
  else Text.Decimal.readNatural? UInt64.size count

/-- The answer of a command that looks around. -/
def look {α : Type} (name : String) (text : α → String) :
    Except OperationError α → Except CommandError String
  | .ok a => .ok (text a)
  | .error e => .error (.refused name e)

/-- The answer of a command that changes the store. -/
def change {α : Type} (name : String) (text : α → String) :
    Except OperationError α × Store → Except CommandError String × Store
  | (outcome, s) => (look name text outcome, s)

/-- Carries out a command. -/
def run (s : Store) : FileCommand → Except CommandError String × Store
  | ls path =>
    (look "ls" (fun found => joinLines (found.map listingLine)) (ByPath.list s path), s)
  | mkdir path =>
    change "mkdir" (fun id => s!"Created directory: {id}") (ByPath.makeDirectory s path)
  | cd path => change "cd" (fun _ => "") (ByPath.enter s path)
  | pwd => (look "pwd" id (ByPath.current s), s)
  | cat path => (look "cat" Text.lossy (ByPath.read s path), s)
  | touch path => change "touch" (fun id => s!"Created file: {id}") (ByPath.makeFile s path)
  | write path text =>
    change "write" (fun _ => s!"Wrote {text.utf8ByteSize} bytes to {path}")
      (ByPath.write s path (Text.bytes text))
  | rm path => change "rm" (fun n => s!"Removed {n} entries") (ByPath.remove s path)
  | mv path newName =>
    change "mv" (fun _ => s!"Renamed {path} to {newName}") (ByPath.rename s path newName)
  | cp source destination =>
    change "cp" (fun id => s!"Copied {source} to {destination} ({id})")
      (ByPath.copy s source destination)
  | find pattern => (look "find" joinLines (ByPath.find s pattern), s)
  | du path => (look "du" usageText (ByPath.usage s path), s)
  | stat path => (look "stat" statText (ByPath.stat s path), s)
  | log count =>
    match logCount? count with
    | some n => (.ok (logTail s n), s)
    | none => (.error (.notANumber "log" count), s)

end FileCommand

end FileTree
