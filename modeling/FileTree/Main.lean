import FileTree.CommandLine

/-!
# The program

What the program reads and writes.  It reads the files that its arguments name, hands them to the
command line, and lets the host that it is given run: over its script, or over standard input,
one line at a time, so that every answer is shown before the next line is read.
-/

namespace FileTree

/-- The name under which the program speaks of itself. -/
def programName : String := "ramfsd"

/-- A failure as the system tells it: in words, and by number. -/
def ReadError.ofCode (code : UInt32) (details : String) : ReadError :=
  if code = 2 then .notFound
  else if code = 20 then .notADirectory
  else if code = 21 then .isDirectory
  else .system (details ++ " (os error " ++ toString code ++ ")")

/-- Why a file cannot be read. -/
def ReadError.ofSystem : IO.Error → ReadError
  | .noFileOrDirectory _ code details => .ofCode code details
  | .inappropriateType _ code details => .ofCode code details
  | .permissionDenied _ code details => .ofCode code details
  | .invalidArgument _ code details => .ofCode code details
  | e => .system (toString e)

/-- The content of a file. -/
def contentOf (path : String) : IO (Except ReadError (List UInt8)) := do
  try
    let file ← IO.FS.Handle.mk path .read
    return .ok (← file.readBinToEnd).toList
  catch e =>
    return .error (ReadError.ofSystem e)

/-- The files with the given names. -/
def readNamed (names : List String) : IO Files := do
  let contents ← names.mapM fun name => return (name, ← contentOf name)
  return fun path => (contents.lookup path).getD (.error .notFound)

/-- An identity by chance. -/
def randomStoreId : IO StoreId := do
  let bytes ← IO.getRandomBytes 16
  return ⟨BitVec.ofNat 128 (bytes.toList.foldl (fun n b => 256 * n + b.toNat) 0)⟩

/-- Writes bytes at once. -/
def writeNow (output : IO.FS.Stream) (bytes : List UInt8) : IO Unit := do
  output.write bytes.toByteArray
  output.flush

/-- The next line of the input with the line feed that ends it, after the bytes in `done`, which
come last first.  It is empty at the end of the input. -/
partial def readLine (input : IO.FS.Stream) (done : List UInt8) : IO (List UInt8) := do
  match (← input.read 1).toList with
  | [] => return done.reverse
  | b :: _ => if b = 10 then return (b :: done).reverse else readLine input (b :: done)

/-- Shows what the console holds. -/
def showConsole (host : Host) : IO Host := do
  let (bytes, host) := host.drain
  writeNow (← IO.getStdout) bytes
  return host

/-- Feeds lines of standard input as long as the shell runs. -/
partial def converse (host : Host) : IO (Except HostError Unit × Host) := do
  let host ← showConsole host
  if host.shell.running then
    match ← readLine (← IO.getStdin) [] with
    | [] => return (.ok (), host)
    | line =>
      match host.feedLine line with
      | (.error e, host) => return (.error e, host)
      | (.ok (), host) => converse host
  else return (.ok (), host)

/-- Lets a host run over its script, or over standard input. -/
def runHere (host : Host) : IO Ending := do
  match host.script with
  | some _ => return CommandLine.conclude (host.run [])
  | none => return CommandLine.conclude (← converse host.start)

end FileTree

open FileTree in
/-- Runs the program; its code is the result. -/
def main (args : List String) : IO UInt32 := do
  let files ← readNamed (CommandLine.namedFiles args)
  let ending ← match CommandLine.launch (← randomStoreId) programName
      (CommandLine.parse files args) with
    | .error ending => pure ending
    | .ok host => runHere host
  writeNow (← IO.getStdout) ending.stdout
  writeNow (← IO.getStderr) ending.stderr
  return ending.code.toUInt32
