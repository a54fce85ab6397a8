import FileTree.Shell.FileCommand

/-!
# Command lines

A command line is a command and its operands, separated by blanks.  The operands of a command
are what is left of the line; a command with two operands takes the first word and the rest.

## Main definitions

* `Command`: a command of the shell with its operands
* `Command.parse`: the command that a line spells, or why it spells none
-/

namespace FileTree

/-- A command of the shell with its operands. -/
inductive Command where
  /-- A command on files. -/
  | file (command : FileCommand)
  | help
  | echo (text : String)
  | set (key value : String)
  | env
  | exit (status : String)
  deriving DecidableEq

namespace Command

/-- The first word of a text and what follows it, without blanks around it. -/
def firstWord (s : String) : String × String :=
  match Text.cutAtBlank? s with
  | some (word, rest) => (word, Text.trim rest)
  | none => (s, "")

/-- A command with an operand, which must be there. -/
def withOperand (name operands : String) (make : String → FileCommand) :
    Except CommandError Command :=
  if operands.isEmpty then .error (.missingOperand name) else .ok (.file (make operands))

/-- A command with two operands, which must be there. -/
def withTwoOperands (name operands : String) (make : String → String → FileCommand) :
    Except CommandError Command :=
  let (first, second) := firstWord operands
  if second.isEmpty then .error (.twoOperandsExpected name) else .ok (.file (make first second))

/-- The command with the given name and operands. -/
def ofWords (name operands : String) : Except CommandError Command :=
  match name with
  | "help" => .ok .help
  | "ls" => .ok (.file (.ls operands))
  | "mkdir" => withOperand name operands .mkdir
  | "cd" => .ok (.file (.cd operands))
  | "pwd" => .ok (.file .pwd)
  | "cat" => withOperand name operands .cat
  | "touch" => withOperand name operands .touch
  | "write" => withTwoOperands name operands .write
  | "rm" => withOperand name operands .rm
  | "mv" => withTwoOperands name operands .mv
  | "cp" => withTwoOperands name operands .cp
  | "find" => .ok (.file (.find operands))
  | "du" => .ok (.file (.du operands))
  | "stat" => .ok (.file (.stat operands))
  | "echo" => .ok (.echo operands)
  | "set" =>
    let (key, value) := firstWord operands
    .ok (.set key value)
  | "env" => .ok .env
  | "log" => .ok (.file (.log operands))
  | "exit" => .ok (.exit operands)
  | _ => .error (.unknownCommand name)

/-- The command that a line spells, or why it spells none. -/
def parse (line : String) : Except CommandError Command :=
  let (name, operands) := firstWord (Text.trim line)
  ofWords name operands

end Command

end FileTree
