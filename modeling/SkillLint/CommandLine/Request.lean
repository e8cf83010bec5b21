import SkillLint.CommandLine.Argument
import SkillLint.Path
import SkillLint.Render

/-!
# Requests

What a command line asks for. The first argument may name a command; otherwise a package is to be validated. The items
behind it are taken in order, and the first one that asks for help or for the version, or that cannot be used, decides. No
flag may be repeated, and a path must not be empty.
-/

namespace SkillLint.CommandLine

open Render (Format)

/-- A shell that can complete command lines. -/
inductive Shell where
  | bash
  | elvish
  | fish
  | powershell
  | zsh
deriving DecidableEq, Repr

/-- The name of a shell. -/
def Shell.name : Shell → String
  | bash => "bash"
  | elvish => "elvish"
  | fish => "fish"
  | powershell => "powershell"
  | zsh => "zsh"

/-- The shells. -/
def Shell.all : List Shell :=
  [.bash, .elvish, .fish, .powershell, .zsh]

/-- What can be asked for. -/
inductive Command where
  | validate
  | init
  | completions
  | help
deriving DecidableEq, Repr

/-- The commands that are asked for by name. -/
def Command.named : List (String × Command) :=
  [("init", .init), ("completions", .completions), ("help", .help)]

/-- The flags of a command. -/
def Command.flags : Command → List Flag
  | validate => [.format, .quiet, .config, .help, .version]
  | init => [.description, .template, .path, .force, .help]
  | completions => [.help]
  | help => []

/-- What is known about a validation run. -/
structure Validation where
  /-- The directory of the package. -/
  root : Option Path := none
  format : Option Format := none
  quiet : Bool := false
  /-- The configuration file that is named. -/
  config : Option Path := none
deriving DecidableEq, Repr

/-- What is known about a new package. -/
structure Creation where
  name : Option String := none
  description : Option String := none
  template : Option String := none
  /-- The directory in which the directory of the package is created. -/
  destination : Option Path := none
  force : Bool := false
deriving DecidableEq, Repr

/-- What a command line asks for. -/
inductive Request where
  | validate (v : Validation)
  | create (c : Creation)
  | complete (shell : Shell)
  | help (command : Command)
  | version
  /-- Nothing, since it cannot be used. -/
  | refuse (error : UsageError)
deriving DecidableEq, Repr

/-- What has been read so far, or the request that needs no further reading. -/
abbrev Reading (α : Type) := Except Request α

/-- The reading that ends with an error. -/
def refuse {α : Type} (error : UsageError) : Reading α :=
  .error (.refuse error)

/-- A value for a flag that has had the value `old`. -/
def once {α : Type} (flag : Flag) (old : Option α) (new : α) : Reading (Option α) :=
  if old.isSome then refuse (.repeatedFlag flag) else .ok (some new)

/-- A switch that has had the position `old` and is turned on. -/
def switchOn (flag : Flag) (old : Bool) : Reading Bool :=
  if old then refuse (.repeatedFlag flag) else .ok true

/-- The path that a value stands for. -/
def readPath (what value : String) : Reading Path :=
  if value = "" then refuse (.badValue what value) else .ok ⟨value⟩

/-- The form of reports that a value stands for. -/
def readFormat (value : String) : Reading Format :=
  if value = "text" then .ok .text else if value = "json" then .ok .json else refuse (.badValue "--format" value)

/-- The shell that a value stands for. -/
def readShell (value : String) : Reading Shell :=
  match Shell.all.find? fun shell => shell.name == value with
  | some shell => .ok shell
  | none => refuse (.badValue "SHELL" value)

/-- What is known about a validation run after one more item. -/
def Validation.read (v : Validation) : Item → Reading Validation
  | .wrong error => refuse error
  | .flag .help => .error (.help .validate)
  | .flag .version => .error .version
  | .flag .quiet => do return { v with quiet := ← switchOn .quiet v.quiet }
  | .flag flag => refuse (.unknownFlag ("--" ++ flag.name))
  | .setting .format value => do return { v with format := ← once .format v.format (← readFormat value) }
  | .setting .config value => do return { v with config := ← once .config v.config (← readPath "--config" value) }
  | .setting flag _ => refuse (.unknownFlag ("--" ++ flag.name))
  | .operand text =>
    if v.root.isSome then refuse (.surplus text) else do return { v with root := some (← readPath "PATH" text) }

/-- What is known about a new package after one more item. -/
def Creation.read (c : Creation) : Item → Reading Creation
  | .wrong error => refuse error
  | .flag .help => .error (.help .init)
  | .flag .force => do return { c with force := ← switchOn .force c.force }
  | .flag flag => refuse (.unknownFlag ("--" ++ flag.name))
  | .setting .description value => do return { c with description := ← once .description c.description value }
  | .setting .template value => do return { c with template := ← once .template c.template value }
  | .setting .path value => do return { c with destination := ← once .path c.destination (← readPath "--path" value) }
  | .setting flag _ => refuse (.unknownFlag ("--" ++ flag.name))
  | .operand text => if c.name.isSome then refuse (.surplus text) else .ok { c with name := some text }

/-- The shell that is asked for after one more item. -/
def readCompletion (shell : Option Shell) : Item → Reading (Option Shell)
  | .wrong error => refuse error
  | .flag .help => .error (.help .completions)
  | .flag flag | .setting flag _ => refuse (.unknownFlag ("--" ++ flag.name))
  | .operand text => if shell.isSome then refuse (.surplus text) else do return some (← readShell text)

/-- The request that a reading ends with. -/
def settle {α : Type} (done : α → Request) : Reading α → Request
  | .ok a => done a
  | .error request => request

/-- The items that the arguments of a command stand for. -/
def Command.items (command : Command) (arguments : List String) : List Item :=
  readArguments command.flags arguments

/-- The request for help on a command that is named. -/
def readHelp : List String → Request
  | [] => .help .validate
  | [name] =>
    match Command.named.lookup name with
    | some command => .help command
    | none => .refuse (.surplus name)
  | name :: surplus :: _ => .refuse (.surplus (if (Command.named.lookup name).isSome then surplus else name))

/-- The request that the arguments of a command make. -/
def Command.request (command : Command) (arguments : List String) : Request :=
  match command with
  | validate => settle .validate ((command.items arguments).foldlM Validation.read {})
  | init => settle .create ((command.items arguments).foldlM Creation.read {})
  | completions =>
    settle (fun shell => (shell.map Request.complete).getD (.refuse (.missingOperand "SHELL")))
      ((command.items arguments).foldlM readCompletion none)
  | help => readHelp arguments

/-- What a command line asks for. -/
def Request.ofArguments : List String → Request
  | [] => Command.validate.request []
  | first :: rest =>
    match Command.named.lookup first with
    | some command => command.request rest
    | none => Command.validate.request (first :: rest)

end SkillLint.CommandLine
