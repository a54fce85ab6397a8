import FileTree.Device
import FileTree.Environment
import FileTree.OpenFiles
import FileTree.Store.Delete
import FileTree.Syscall.Response

/-!
# Sessions

A session is what one process has of the system: a store, a keyboard and a console, its open
files, its environment and the status with which it left.  The process asks for everything by
requests.  A descriptor stays with the entry for which it was opened: once that entry is deleted
the descriptor is bad, even if another entry has taken the slot.

## Main definitions

* `Session`: the state that requests act on
* `Session.handle`: serves one request
* `Session.dispatch`: serves one request and shows only the return code
-/

namespace FileTree

/-- The state that requests act on. -/
structure Session where
  store : Store
  keyboard : Keyboard := {}
  console : Console := {}
  files : OpenFiles := {}
  environment : Environment := {}
  /-- The status of the last exit, if there was one. -/
  exitStatus : Option Int32 := none

namespace Session

/-- The name under which requests are logged. -/
def component : String := "syscall"

/-- The number of the only process. -/
def currentPid : UInt32 := 1

/-- The session with one more event in the log of its store. -/
def record (ses : Session) (r : Record) : Session :=
  { ses with store := ses.store.record r }

/-- The session with an event in the log, about the given open file if there is one. -/
def trace (ses : Session) (level : Level) (message : String)
    (about : Option (Descriptor × EntryId)) : Session :=
  ses.record {
    level, component, message
    fields := match about with
      | some (fd, id) => [("fd", toString fd.number.toNat), ("id", toString id.index)]
      | none => [] }

/-- The descriptor is not open in the direction asked for. -/
def badDescriptor (ses : Session) (fd : Descriptor) : Except SyscallError Response × Session :=
  (.error (.badDescriptor fd), ses.trace .warn s!"bad descriptor {fd}" none)

/-- The entry for which the descriptor was opened is gone. -/
def staleDescriptor (ses : Session) (fd : Descriptor) (file : OpenFile) :
    Except SyscallError Response × Session :=
  (.error (.badDescriptor fd),
    ses.trace .warn "descriptor outlived its entry" (some (fd, file.entry)))

/-- The entry for which the file was opened is still there. -/
def isCurrent (ses : Session) (file : OpenFile) : Bool :=
  match ses.store.table.generation file.entry with
  | .ok generation => generation == file.generation
  | .error _ => false

/-- The process leaves. -/
def exit (ses : Session) (status : Int32) : Except SyscallError Response × Session :=
  (.ok (.exited status), { ses with exitStatus := some status }.trace .info "exit" none)

/-- Writes to the console.  It shows the bytes up to the first NUL, and takes all of them. -/
def writeConsole (ses : Session) (data : List UInt8) : Except SyscallError Response × Session :=
  (.ok (.count data.length.toUInt64),
    { ses with console := ses.console.write (data.takeWhile (· != 0)) })

/-- Writes to a file at the position of its descriptor, where the file then ends. -/
def writeFile (ses : Session) (fd : Descriptor) (file : OpenFile) (data : List UInt8) :
    Except SyscallError Response × Session :=
  if ses.isCurrent file then
    match ses.store.readAll file.entry with
    | .error e => (.error (.store e), ses)
    | .ok content =>
      let offset := min file.offset content.length
      match ses.store.write file.entry (content.take offset ++ data) with
      | (.error e, store) => (.error (.store e), { ses with store := store })
      | (.ok (), store) =>
        (.ok (.count data.length.toUInt64),
          { ses with store := store, files := ses.files.seek fd (offset + data.length) })
  else ses.staleDescriptor fd file

/-- Writes to the console or to a file.  There must be something to write. -/
def write (ses : Session) (fd : Descriptor) (data : List UInt8) :
    Except SyscallError Response × Session :=
  if data.isEmpty then (.error (.invalidArgument "empty write"), ses)
  else if fd = .stdout ∨ fd = .stderr then ses.writeConsole data
  else if fd = .stdin then ses.badDescriptor fd
  else
    match ses.files.find? fd with
    | none => ses.badDescriptor fd
    | some file => ses.writeFile fd file data

/-- Reads at most one byte from the keyboard, without waiting. -/
def readKeyboard (ses : Session) (maxLength : UInt64) :
    Except SyscallError Response × Session :=
  if maxLength = 0 then (.ok (.data []), ses)
  else
    match ses.keyboard.poll with
    | (none, keyboard) => (.ok (.data []), { ses with keyboard := keyboard })
    | (some b, keyboard) => (.ok (.data [b]), { ses with keyboard := keyboard })

/-- Reads from a file at the position of its descriptor, and moves the position past what was
read. -/
def readFile (ses : Session) (fd : Descriptor) (file : OpenFile) (maxLength : UInt64) :
    Except SyscallError Response × Session :=
  if ses.isCurrent file then
    match ses.store.readAll file.entry with
    | .error e => (.error (.store e), ses)
    | .ok content =>
      let start := min file.offset content.length
      let stop := min (start + maxLength.toNat) content.length
      (.ok (.data ((content.drop start).take (stop - start))),
        { ses with files := ses.files.seek fd stop })
  else ses.staleDescriptor fd file

/-- Reads from the keyboard or from a file. -/
def read (ses : Session) (fd : Descriptor) (maxLength : UInt64) :
    Except SyscallError Response × Session :=
  if fd = .stdin then ses.readKeyboard maxLength
  else if fd = .stdout ∨ fd = .stderr then ses.badDescriptor fd
  else
    match ses.files.find? fd with
    | none => ses.badDescriptor fd
    | some file => ses.readFile fd file maxLength

/-- The entry to be opened: the one that the path names, or, if it names none and one is to be
made, a new file in the current directory. -/
def locate (s : Store) (path : String) (create : Bool) : Except StoreError EntryId × Store :=
  match s.resolve path with
  | .ok id => (.ok id, s)
  | .error (.notFound missing) =>
    if create then s.createFile path else (.error (.notFound missing), s)
  | .error e => (.error e, s)

/-- Opens a file at its start.  A file that is made stays even if no descriptor is free. -/
def openFile (ses : Session) (path : String) (create : Bool) :
    Except SyscallError Response × Session :=
  match locate ses.store path create with
  | (.error e, store) => (.error (.store e), { ses with store := store })
  | (.ok id, store) =>
    let ses := { ses with store := store }
    match ses.store.entry id with
    | .error e => (.error (.store e), ses)
    | .ok entry =>
      if entry.isDirectory then (.error (.store (.notAFile id)), ses)
      else
        match ses.store.table.generation id with
        | .error e => (.error (.store e), ses)
        | .ok generation =>
          match ses.files.acquire id generation with
          | .error e => (.error e, ses)
          | .ok (fd, files) =>
            (.ok (.opened fd), { ses with files := files }.trace .debug "open" (some (fd, id)))

/-- Closes a descriptor.  The standard ones stay open. -/
def closeFile (ses : Session) (fd : Descriptor) : Except SyscallError Response × Session :=
  if fd.isStandard then ses.badDescriptor fd
  else
    match ses.files.close fd with
    | .error e => (.error e, ses.trace .warn "close of unknown descriptor" none)
    | .ok (file, files) =>
      (.ok .closed, { ses with files := files }.trace .debug "close" (some (fd, file.entry)))

/-- Sets a variable, which must have a name. -/
def setEnv (ses : Session) (key value : String) : Except SyscallError Response × Session :=
  if key.isEmpty then (.error (.invalidArgument "empty variable name"), ses)
  else (.ok .envSet, { ses with environment := ses.environment.set key value })

/-- Serves one request. -/
def handle (ses : Session) : Request → Except SyscallError Response × Session
  | .exit status => ses.exit status
  | .write fd data => ses.write fd data
  | .read fd maxLength => ses.read fd maxLength
  | .openFile path create => ses.openFile path create
  | .closeFile fd => ses.closeFile fd
  | .getPid => (.ok (.pid currentPid), ses)
  | .getEnv key => (.ok (.env (ses.environment.get? key)), ses)
  | .setEnv key value => ses.setEnv key value

/-- The return code of an outcome. -/
def returnCode : Except SyscallError Response → Int
  | .ok response => response.returnCode
  | .error e => e.returnCode

/-- Serves one request and shows only the return code. -/
def dispatch (ses : Session) (r : Request) : Int × Session :=
  let (outcome, ses) := ses.handle r
  (returnCode outcome, ses)

/-- The session with `bytes` typed at its keyboard. -/
def typeKeys (ses : Session) (bytes : List UInt8) : Session :=
  { ses with keyboard := ses.keyboard.push bytes }

end Session

end FileTree
