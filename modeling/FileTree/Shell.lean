import FileTree.LineEditor
import FileTree.Session
import FileTree.Shell.Command

/-!
# The shell

The shell reads typed bytes through its session, edits them into lines, carries out every line
that is not blank, and writes the answers to the console.  It shows the current directory in its
prompt, and looks it up again after the commands that may move it.

## Main definitions

* `Shell`: the state of a shell
* `Shell.execute`: carries out a line and gives its answer
* `Shell.runLine`: carries out a line and shows its answer
* `Shell.press`: takes one typed byte
* `Shell.pump`: takes the pending bytes until none is left or the shell has ended
-/

namespace FileTree

/-- The state of a shell. -/
structure Shell where
  session : Session
  editor : LineEditor := {}
  /-- The current directory as it is shown. -/
  cwd : String := "/"
  running : Bool := true
  /-- Whether typed bytes are shown. -/
  echo : Bool := true

namespace Shell

/-- The name under which the shell writes to the log. -/
def component : String := "shell"

/-- What the shell says about its commands. -/
def helpText : String :=
  FileCommand.joinLines
    ["Available commands:",
      "  help                 - Show this help message",
      "  ls [path]            - List a directory",
      "  mkdir <name>         - Create a directory here",
      "  cd [path]            - Change directory (.. for parent, none for root)",
      "  pwd                  - Show the current directory",
      "  cat <path>           - Print a file",
      "  touch <name>         - Create an empty file here",
      "  write <path> <text>  - Replace a file's content",
      "  rm <path>            - Remove an entry and its contents",
      "  mv <path> <name>     - Rename an entry",
      "  cp <src> <name>      - Copy a file",
      "  find <pattern>       - Search names across the tree",
      "  du [path]            - Show space used",
      "  stat [path]          - Show entry details",
      "  echo <text>          - Print text",
      "  set <key> <value>    - Set an environment variable",
      "  env                  - List environment variables",
      "  log [count]          - Show recent log entries",
      "  exit [status]        - Leave the shell"]

/-- The prompt. -/
def prompt (sh : Shell) : String :=
  "ramfs:" ++ sh.cwd ++ "> "

/-- The shell with its store in another state. -/
def withStore (sh : Shell) (store : Store) : Shell :=
  { sh with session := { sh.session with store := store } }

/-- The shell with the current directory looked up again. -/
def refreshCwd (sh : Shell) : Shell :=
  match ByPath.current sh.session.store with
  | .ok path => { sh with cwd := path }
  | .error _ => sh

/-- Writes a text to the console.  A failure goes to the log. -/
def print (sh : Shell) (fd : Descriptor) (text : String) : Shell :=
  if text.isEmpty then sh
  else
    match sh.session.handle (.write fd (Text.bytes text)) with
    | (.ok _, session) => { sh with session := session }
    | (.error e, session) =>
      { sh with session := session.record {
          level := .warn, component
          message := "console write failed: " ++ e.message } }

/-- Carries out a request whose answer carries nothing. -/
def request (sh : Shell) (name : String) (r : Request) : Except CommandError String × Shell :=
  match sh.session.handle r with
  | (.ok _, session) => (.ok "", { sh with session := session })
  | (.error e, session) => (.error (.failed name e), { sh with session := session })

/-- The exit status that the operand of `exit` spells; none given is zero. -/
def exitStatus? (operand : String) : Option Int32 :=
  if operand.isEmpty then some 0
  else (Text.Decimal.readInteger? Int32.minValue.toInt Int32.maxValue.toInt operand).map Int32.ofInt

/-- Ends the shell. -/
def leave (sh : Shell) (operand : String) : Except CommandError String × Shell :=
  match exitStatus? operand with
  | none => (.error (.notANumber "exit" operand), sh)
  | some status =>
    match sh.request "exit" (.exit status) with
    | (.error e, sh) => (.error e, sh)
    | (.ok answer, sh) => (.ok answer, { sh with running := false })

/-- The command may move the current directory. -/
def mayMoveCursor : FileCommand → Bool
  | .cd _ | .rm _ => true
  | _ => false

/-- The variables of the environment, one to a line. -/
def environmentText (env : Environment) : String :=
  FileCommand.joinLines (env.bindings.map fun v => v.1 ++ "=" ++ v.2)

/-- Carries out a command and gives its answer. -/
def perform (sh : Shell) : Command → Except CommandError String × Shell
  | .file command =>
    let (answer, store) := command.run sh.session.store
    let sh := sh.withStore store
    (answer, if mayMoveCursor command then sh.refreshCwd else sh)
  | .help => (.ok helpText, sh)
  | .echo text => (.ok text, sh)
  | .set key value => sh.request "set" (.setEnv key value)
  | .env => (.ok (environmentText sh.session.environment), sh)
  | .exit status => sh.leave status

/-- Carries out a line and gives its answer. -/
def execute (sh : Shell) (line : String) : Except CommandError String × Shell :=
  match Command.parse line with
  | .error e => (.error e, sh)
  | .ok command => sh.perform command

/-- Carries out a line and shows its answer. -/
def runLine (sh : Shell) (line : String) : Shell :=
  match sh.execute line with
  | (.ok answer, sh) => if answer.isEmpty then sh else sh.print .stdout (answer ++ "\n")
  | (.error e, sh) => sh.print .stderr (e.message ++ "\n")

/-- Shows the prompt. -/
def start (sh : Shell) : Shell :=
  sh.print .stdout sh.prompt

/-- Shows a text if typed bytes are shown. -/
def echoText (sh : Shell) (text : String) : Shell :=
  if sh.echo then sh.print .stdout text else sh

/-- A line has ended: carries it out unless it is blank, and shows the prompt if the shell goes
on. -/
def submit (sh : Shell) (line : String) : Shell :=
  let sh := sh.echoText "\n"
  let sh := if (Text.trim line).isEmpty then sh else sh.runLine line
  if sh.running then sh.start else sh

/-- Takes one typed byte. -/
def press (sh : Shell) (b : UInt8) : Shell :=
  let (outcome, editor) := sh.editor.press b
  let sh := { sh with editor := editor }
  match outcome with
  | .echo b => sh.echoText (LineEditor.asciiText [b])
  | .erase => sh.echoText "\x08 \x08"
  | .submit line => sh.submit line
  | .ignored => sh

/-- Takes pending bytes, at most `fuel` of them, until none is left or the shell has ended.  The
answer is the number of bytes taken. -/
def pumpAtMost : Nat → Shell → Nat × Shell
  | 0, sh => (0, sh)
  | fuel + 1, sh =>
    if sh.running then
      match sh.session.handle (.read .stdin 1) with
      | (.ok (.data (b :: _)), session) =>
        let (taken, sh) := pumpAtMost fuel ({ sh with session := session }.press b)
        (taken + 1, sh)
      | (_, session) => (0, { sh with session := session })
    else (0, sh)

/-- Takes the pending bytes until none is left or the shell has ended.  The answer is the number
of bytes taken. -/
def pump (sh : Shell) : Nat × Shell :=
  pumpAtMost sh.session.keyboard.pending.length sh

/-- Types `bytes` and lets the shell take them. -/
def feed (sh : Shell) (bytes : List UInt8) : Shell :=
  ({ sh with session := sh.session.typeKeys bytes }.pump).2

end Shell

end FileTree
