/-!
# Arguments

A command takes flags and operands. A flag has a long name behind two hyphens and may have a letter behind one; some
flags take a value, which is the rest of the argument or the argument behind it. Letters may be put together behind one
hyphen. Two hyphens alone make operands of all arguments behind them, and a hyphen alone is an operand.
-/

namespace SkillLint.CommandLine

/-- The flags of all commands. -/
inductive Flag where
  | format
  | quiet
  | config
  | description
  | template
  | path
  | force
  | help
  | version
deriving DecidableEq, Repr

namespace Flag

/-- The long name of a flag. -/
def name : Flag → String
  | format => "format"
  | quiet => "quiet"
  | config => "config"
  | description => "description"
  | template => "template"
  | path => "path"
  | force => "force"
  | help => "help"
  | version => "version"

/-- The letter of a flag, if it has one. -/
def letter? : Flag → Option Char
  | quiet => some 'q'
  | description => some 'd'
  | template => some 't'
  | path => some 'p'
  | help => some 'h'
  | version => some 'V'
  | format | config | force => none

/-- Whether a flag takes a value. -/
def takesValue : Flag → Bool
  | format | config | description | template | path => true
  | quiet | force | help | version => false

end Flag

/-- Why the arguments of a command cannot be used. -/
inductive UsageError where
  /-- The argument, or a letter in it, is no flag of the command. -/
  | unknownFlag (argument : String)
  /-- A flag that takes a value has none. -/
  | missingValue (flag : Flag)
  /-- A flag that takes no value has one. -/
  | unwantedValue (flag : Flag) (value : String)
  /-- A flag is given twice. -/
  | repeatedFlag (flag : Flag)
  /-- The value of a flag or an operand is none of those that may be given. -/
  | badValue (what value : String)
  /-- There are more operands than the command takes. -/
  | surplus (operand : String)
  /-- A mandatory operand is missing. -/
  | missingOperand (name : String)
deriving DecidableEq, Repr

/-- What one or two arguments stand for. -/
inductive Item where
  | flag (flag : Flag)
  | setting (flag : Flag) (value : String)
  | operand (text : String)
  | wrong (error : UsageError)
deriving DecidableEq, Repr

/-- Whether an argument can be the value of the flag before it, or an operand: it is a hyphen alone or starts with none. -/
def isFree (argument : String) : Bool :=
  argument == "-" || argument.toList.head? != some '-'

/-- The items that the letters behind a hyphen stand for, up to a letter whose flag takes a value. The second component
is that flag, if its value is not in the same argument. -/
def readLetters (known : List Flag) : List Char → List Item × Option Flag
  | [] => ([], none)
  | c :: rest =>
    match known.find? fun flag => flag.letter? == some c with
    | none => ([.wrong (.unknownFlag (String.ofList ['-', c]))], none)
    | some flag =>
      if flag.takesValue then
        match rest with
        | [] => ([], some flag)
        | '=' :: value => ([.setting flag (String.ofList value)], none)
        | value => ([.setting flag (String.ofList value)], none)
      else
        let (items, last) := readLetters known rest
        (.flag flag :: items, last)

/-- The item that a long name stands for, with the text behind the equals sign if there is one; a flag alone if its value
must be in the next argument. -/
def readName (known : List Flag) (body : List Char) : Item ⊕ Flag :=
  let name := body.takeWhile (· != '=')
  match known.find? fun flag => flag.name.toList == name with
  | none => .inl (.wrong (.unknownFlag (String.ofList ('-' :: '-' :: body))))
  | some flag =>
    match flag.takesValue, body.dropWhile (· != '=') with
    | true, _ :: value => .inl (.setting flag (String.ofList value))
    | true, [] => .inr flag
    | false, _ :: value => .inl (.wrong (.unwantedValue flag (String.ofList value)))
    | false, [] => .inl (.flag flag)

/-- The items that an argument stands for, and the flag whose value the next argument must be, if there is one. -/
def readArgument (known : List Flag) (argument : String) : List Item × Option Flag :=
  match argument.toList with
  | '-' :: '-' :: body =>
    match readName known body with
    | .inl item => ([item], none)
    | .inr flag => ([], some flag)
  | '-' :: c :: rest => readLetters known (c :: rest)
  | _ => ([.operand argument], none)

/-- The items that some arguments stand for, in order. What stands behind an item that is wrong does not matter. -/
def readArguments (known : List Flag) : List String → List Item
  | [] => []
  | argument :: rest =>
    if argument = "--" then rest.map .operand
    else
      match readArgument known argument with
      | (items, none) => items ++ readArguments known rest
      | (items, some flag) =>
        match rest with
        | [] => items ++ [.wrong (.missingValue flag)]
        | value :: more =>
          if isFree value then items ++ .setting flag value :: readArguments known more
          else items ++ [.wrong (.missingValue flag)]

end SkillLint.CommandLine
