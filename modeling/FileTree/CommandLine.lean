import FileTree.Host

/-!
# The command line

The program is started with options from left to right.  A configuration file and a script may
be given, the last of each counts; asking for the defaults or for help ends the reading at
once.

## Main definitions

* `Switch`: what an argument switches
* `Invocation`: what the options ask for
* `CommandLine.parse`: the invocation that the arguments spell, or why they spell none
* `CommandLine.launch`, `CommandLine.conclude`: what comes before a host runs, and after it
* `CommandLine.run`: what the program writes and the code with which it ends

## Main results

* `CommandLine.parse_congr`: only the files that are named matter
-/

namespace FileTree

/-- Why the arguments are refused. -/
inductive ArgumentError where
  /-- The option lacks its value. -/
  | missingValue (option : String)
  /-- The configuration file is of no use. -/
  | config (cause : HostError)
  /-- The script cannot be read. -/
  | script (cause : ReadError)
  /-- There is no such option. -/
  | unknownOption (option : String)
  deriving DecidableEq

/-- The text of a refusal. -/
def ArgumentError.message : ArgumentError → String
  | .missingValue option => s!"Missing value for {option}"
  | .config cause => cause.message
  | .script cause => "Failed to read script file: " ++ cause.message
  | .unknownOption option => s!"Unknown option: {option}"

/-- What the options ask for. -/
inductive Invocation where
  | run (settings : HostSettings)
  | printConfig
  | help
  deriving DecidableEq

/-- What an argument switches. -/
inductive Switch where
  | config
  | script
  | echo (on : Bool)
  | printConfig
  | help
  deriving DecidableEq

namespace Switch

/-- The switch that an argument spells. -/
def ofText? (arg : String) : Option Switch :=
  if arg = "--config" ∨ arg = "-c" then some .config
  else if arg = "--script" ∨ arg = "-s" then some .script
  else if arg = "--echo" then some (.echo true)
  else if arg = "--no-echo" then some (.echo false)
  else if arg = "--print-config" then some .printConfig
  else if arg = "--help" ∨ arg = "-h" then some .help
  else none

/-- The switch is followed by the name of a file. -/
def takesFile : Switch → Bool
  | config | script => true
  | echo _ | printConfig | help => false

end Switch

/-- The options read so far. -/
structure Options where
  config : Config := {}
  script : Option String := none
  echo : Option Bool := none
  deriving DecidableEq

/-- The settings of a host.  A script is shown as it is typed unless the options say
otherwise. -/
def Options.settings (o : Options) : HostSettings :=
  { config := o.config, script := o.script, echo := o.echo.getD o.script.isSome }

/-- What the program writes and the code with which it ends. -/
structure Ending where
  code : Nat
  stdout : List UInt8
  stderr : List UInt8
  deriving DecidableEq

namespace CommandLine

/-- The text of a script file, which must be UTF-8. -/
def loadScript (files : Files) (path : String) : Except ArgumentError String :=
  match files path with
  | .error e => .error (.script e)
  | .ok bytes =>
    match Text.ofBytes? bytes with
    | none => .error (.script .notUtf8)
    | some text => .ok text

/-- The configuration in a file. -/
def loadConfig (files : Files) (path : String) : Except ArgumentError Config :=
  match Host.loadConfig files path with
  | .error e => .error (.config e)
  | .ok config => .ok config

/-- The names that follow a switch which takes the name of a file. -/
def namedFiles : List String → List String
  | arg :: name :: rest =>
    if (Switch.ofText? arg).any Switch.takesFile then name :: namedFiles rest
    else namedFiles (name :: rest)
  | _ => []

/-- The invocation that the arguments spell after the options read so far. -/
def parseFrom (files : Files) (o : Options) : List String → Except ArgumentError Invocation
  | [] => .ok (.run o.settings)
  | arg :: rest =>
    match Switch.ofText? arg with
    | none => .error (.unknownOption arg)
    | some .help => .ok .help
    | some .printConfig => .ok .printConfig
    | some (.echo on) => parseFrom files { o with echo := some on } rest
    | some .config =>
      match rest with
      | [] => .error (.missingValue "--config")
      | path :: rest =>
        match loadConfig files path with
        | .error e => .error e
        | .ok config => parseFrom files { o with config := config } rest
    | some .script =>
      match rest with
      | [] => .error (.missingValue "--script")
      | path :: rest =>
        match loadScript files path with
        | .error e => .error e
        | .ok script => parseFrom files { o with script := some script } rest

/-- The invocation that the arguments spell. -/
def parse (files : Files) (args : List String) : Except ArgumentError Invocation :=
  parseFrom files {} args

theorem loadConfig_congr {files others : Files} {path : String}
    (h : files path = others path) : loadConfig files path = loadConfig others path := by
  simp only [loadConfig, Host.loadConfig, h]

theorem loadScript_congr {files others : Files} {path : String}
    (h : files path = others path) : loadScript files path = loadScript others path := by
  simp only [loadScript, h]

theorem namedFiles_cons_cons {arg : String} {switch : Switch} (h : Switch.ofText? arg = some switch)
    (hf : switch.takesFile = true) (name : String) (rest : List String) :
    namedFiles (arg :: name :: rest) = name :: namedFiles rest := by
  simp [namedFiles, h, hf]

theorem namedFiles_cons {arg : String} {switch : Switch} (h : Switch.ofText? arg = some switch)
    (hf : switch.takesFile = false) (rest : List String) :
    namedFiles (arg :: rest) = namedFiles rest := by
  cases rest <;> simp [namedFiles, h, hf]

theorem parseFrom_congr {files others : Files} {o : Options} {args : List String}
    (h : ∀ name ∈ namedFiles args, files name = others name) :
    parseFrom files o args = parseFrom others o args := by
  fun_induction parseFrom files o args with
  | case1 => rfl
  | case2 o arg rest hs => unfold parseFrom; simp only [hs]
  | case3 o arg rest hs => unfold parseFrom; simp only [hs]
  | case4 o arg rest hs => unfold parseFrom; simp only [hs]
  | case5 o arg rest on hs ih =>
    rw [namedFiles_cons hs rfl] at h
    conv => rhs; unfold parseFrom
    simp only [hs, ih h]
  | case6 o arg hs => unfold parseFrom; simp only [hs]
  | case7 o arg hs path rest e he =>
    rw [namedFiles_cons_cons hs rfl, List.forall_mem_cons] at h
    unfold parseFrom
    simp only [hs, ← loadConfig_congr h.1, he]
  | case8 o arg hs path rest config hc ih =>
    rw [namedFiles_cons_cons hs rfl, List.forall_mem_cons] at h
    conv => rhs; unfold parseFrom
    simp only [hs, ← loadConfig_congr h.1, hc, ih h.2]
  | case9 o arg hs => unfold parseFrom; simp only [hs]
  | case10 o arg hs path rest e he =>
    rw [namedFiles_cons_cons hs rfl, List.forall_mem_cons] at h
    unfold parseFrom
    simp only [hs, ← loadScript_congr h.1, he]
  | case11 o arg hs path rest script hc ih =>
    rw [namedFiles_cons_cons hs rfl, List.forall_mem_cons] at h
    conv => rhs; unfold parseFrom
    simp only [hs, ← loadScript_congr h.1, hc, ih h.2]

/-- Only the files that are named matter. -/
theorem parse_congr {files others : Files} {args : List String}
    (h : ∀ name ∈ namedFiles args, files name = others name) :
    parse files args = parse others args :=
  parseFrom_congr h

/-- How the program is to be used. -/
def usage (program : String) : String :=
  FileCommand.joinLines
    ["Usage: " ++ program ++ " [OPTIONS]",
      "",
      "Options:",
      "  -c, --config <FILE>      Store limits as JSON",
      "  -s, --script <FILE>      Run commands from a file instead of stdin",
      "  --echo / --no-echo       Force echo of typed input on or off",
      "  --print-config           Print the default store limits and exit",
      "  -h, --help               Show this help message",
      "",
      "Examples:",
      "  " ++ program ++ " --script session.txt",
      "  " ++ program ++ " --config limits.json",
      ""]

/-- What a refusal of the arguments writes. -/
def refusalText (program : String) (e : ArgumentError) : String :=
  "Error: " ++ e.message ++ "\n" ++ usage program

/-- What the request for the defaults writes. -/
def defaultConfigText : List UInt8 :=
  ({} : Config).text ++ [10]

/-- The code that the system sees of an exit status: its lowest eight bits. -/
def exitCode (status : Option Int32) : Nat :=
  ((status.getD 0).toInt % 256).toNat

/-- The host that the invocation asks for, or what the program does without one. -/
def launch (id : StoreId) (program : String) :
    Except ArgumentError Invocation → Except Ending Host
  | .error e => .error ⟨1, [], Text.bytes (refusalText program e)⟩
  | .ok .printConfig => .error ⟨0, defaultConfigText, []⟩
  | .ok .help => .error ⟨0, [], Text.bytes (usage program)⟩
  | .ok (.run settings) =>
    match Host.create id settings with
    | .error e => .error ⟨1, [], Text.bytes ("Failed to create runtime: " ++ e.message ++ "\n")⟩
    | .ok host => .ok host

/-- What the program still writes once its host has run, and the code with which it ends. -/
def conclude : Except HostError Unit × Host → Ending
  | (.error e, host) =>
    ⟨1, host.shell.session.console.output, Text.bytes ("Runtime error: " ++ e.message ++ "\n")⟩
  | (.ok (), host) =>
    ⟨exitCode host.exitStatus, host.shell.session.console.output ++ [10], []⟩

/-- What the program writes and the code with which it ends. -/
def run (id : StoreId) (program : String) (files : Files) (args : List String)
    (input : List UInt8) : Ending :=
  match launch id program (parse files args) with
  | .error ending => ending
  | .ok host => conclude (host.run input)

end CommandLine

end FileTree
