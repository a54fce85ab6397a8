import FileTree.Config.Text
import FileTree.Shell

/-!
# The host

A host runs a shell over a store of its own.  It feeds the shell either a script, or its input
line by line.

## Main definitions

* `HostSettings`: what a host is started with
* `Host.create`: a host over a fresh store
* `Host.run`: feeds the script or the input
-/

namespace FileTree

/-- Why a file or the input cannot be read. -/
inductive ReadError where
  /-- There is no such file. -/
  | notFound
  /-- The name is that of a directory. -/
  | isDirectory
  /-- A name on the way is not that of a directory. -/
  | notADirectory
  /-- The bytes are not UTF-8. -/
  | notUtf8
  /-- The system says why. -/
  | system (text : String)
  deriving DecidableEq

/-- The text of a failure to read. -/
def ReadError.message : ReadError → String
  | .notFound => "No such file or directory (os error 2)"
  | .isDirectory => "Is a directory (os error 21)"
  | .notADirectory => "Not a directory (os error 20)"
  | .notUtf8 => "stream did not contain valid UTF-8"
  | .system text => text

/-- Why a host gives up. -/
inductive HostError where
  | store (cause : StoreError)
  | config (cause : ConfigError)
  | readFailed (path : String) (cause : ReadError)
  | input (cause : ReadError)
  deriving DecidableEq

/-- The text of a failure. -/
def HostError.message : HostError → String
  | .store cause => "Store error: " ++ cause.message
  | .config cause => "Config error: " ++ cause.message
  | .readFailed path cause => "Failed to read " ++ path ++ ": " ++ cause.message
  | .input cause => "Input error: " ++ cause.message

/-- The files that can be read: their content by name. -/
abbrev Files := String → Except ReadError (List UInt8)

/-- What a host is started with. -/
structure HostSettings where
  config : Config := {}
  /-- The bytes to be typed, in place of the input. -/
  script : Option String := none
  echo : Bool := false
  deriving DecidableEq

/-- A shell over a store of its own, with the script that it is to be fed. -/
structure Host where
  shell : Shell
  script : Option String

namespace Host

/-- The name under which a host writes to the log. -/
def component : String := "host"

/-- The configuration that a file spells. -/
def loadConfig (files : Files) (path : String) : Except HostError Config :=
  match files path with
  | .error e => .error (.readFailed path e)
  | .ok text =>
    match Config.parse text with
    | .error e => .error (.config e)
    | .ok config => .ok config

/-- A host over a fresh store. -/
def create (id : StoreId) (settings : HostSettings) : Except HostError Host :=
  match Store.fresh id settings.config {} with
  | .error e => .error (.store e)
  | .ok store =>
    let store := store.record {
      level := .info, component
      message := "host started"
      source := some store.id
      fields := [("scripted", if settings.script.isSome then "true" else "false")] }
    .ok {
      shell := { session := { store }, echo := settings.echo }
      script := settings.script }

/-- Types `bytes` and lets the shell take them. -/
def feed (h : Host) (bytes : List UInt8) : Host :=
  { h with shell := h.shell.feed bytes }

/-- Shows the first prompt. -/
def start (h : Host) : Host :=
  { h with shell := h.shell.start }

/-- Feeds a script, and a line feed after it if its last line lacks one and the shell still
runs. -/
def feedScript (h : Host) (script : String) : Host :=
  let h := { h with script := none }.feed (Text.bytes script)
  if h.shell.running && script.toList.getLast? != some '\n' then h.feed [10] else h

/-- Feeds one line of input, which must be UTF-8. -/
def feedLine (h : Host) (line : List UInt8) : Except HostError Unit × Host :=
  match Text.ofBytes? line with
  | none => (.error (.input .notUtf8), h)
  | some _ => (.ok (), h.feed line)

/-- Feeds lines of input as long as the shell runs. -/
def feedLines (h : Host) : List (List UInt8) → Except HostError Unit × Host
  | [] => (.ok (), h)
  | line :: rest =>
    if h.shell.running then
      match h.feedLine line with
      | (.error e, h) => (.error e, h)
      | (.ok (), h) => h.feedLines rest
    else (.ok (), h)

/-- The lines of the bytes, each with the line feed that ends it; the last may lack it. -/
def inputLines : List UInt8 → List (List UInt8)
  | [] => []
  | b :: rest =>
    if b = 10 then [b] :: inputLines rest
    else
      match inputLines rest with
      | [] => [[b]]
      | line :: lines => (b :: line) :: lines

/-- Shows the first prompt, and feeds the script if there is one and otherwise the input. -/
def run (h : Host) (input : List UInt8) : Except HostError Unit × Host :=
  let h := h.start
  match h.script with
  | some script => (.ok (), h.feedScript script)
  | none => h.feedLines (inputLines input)

/-- What the console shows since it was last drained, and the host with an empty console. -/
def drain (h : Host) : List UInt8 × Host :=
  let session := h.shell.session
  (session.console.output,
    { h with shell := { h.shell with session := { session with console := {} } } })

/-- The status with which the shell was left, if it was. -/
def exitStatus (h : Host) : Option Int32 :=
  h.shell.session.exitStatus

end Host

end FileTree
