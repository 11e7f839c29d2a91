/-!
# Arguments

The arguments of the command: flags for all commands, the name of a command, and
the flags and the one other argument of that command. A flag is written with one
dash and a letter, of which several may stand together, or with two dashes and a
name. A value follows its flag, or stands right behind it.
-/

namespace Handoff.Command

/-! ### Flags -/

/-- A flag. -/
inductive Flag where
  /-- Tell more about what is done. -/
  | verbose
  /-- Where the settings are. -/
  | config
  /-- The link that the export belongs to. -/
  | url
  /-- Where to write. -/
  | out
  /-- A node to import. -/
  | node
  /-- Generate screens. -/
  | screen
  /-- Generate sources without types. -/
  | js
  /-- Show how the command is used. -/
  | help
  /-- Show the version. -/
  | version
  deriving DecidableEq, Repr

namespace Flag

/-- The letter of the flag. -/
def letter? : Flag → Option Char
  | verbose => some 'v'
  | config => some 'c'
  | out => some 'o'
  | node => some 'n'
  | help => some 'h'
  | version => some 'V'
  | url | screen | js => none

/-- The name of the flag. -/
def name : Flag → String
  | verbose => "verbose"
  | config => "config"
  | url => "url"
  | out => "out"
  | node => "node"
  | screen => "screen"
  | js => "js"
  | help => "help"
  | version => "version"

/-- Whether the flag has a value. -/
def hasValue : Flag → Bool
  | config | url | out | node => true
  | _ => false

/-- Whether the flag may be given more than once. -/
def mayRepeat : Flag → Bool
  | verbose | node => true
  | _ => false

/-- Whether the value of the flag is a path, which is never empty. -/
def isPath : Flag → Bool
  | config | out => true
  | _ => false

end Flag

/-- Why arguments do not make up a command. -/
inductive Refusal where
  /-- They are wrong. -/
  | usage
  /-- They ask how the command is used. -/
  | help
  /-- They ask for the version. -/
  | version
  deriving DecidableEq, Repr

/-- An argument with its meaning. -/
inductive Argument where
  /-- A flag with its value, if it has one. -/
  | flag (flag : Flag) (value : Option String)
  /-- An argument that is no flag. -/
  | plain (text : String)
  deriving DecidableEq, Repr

/-- What a command takes besides flags. -/
inductive Operand where
  /-- Nothing. -/
  | absent
  /-- One text. -/
  | text
  /-- One path, which is never empty. -/
  | path
  deriving DecidableEq, Repr

/-- Whether an argument is no flag. -/
def Argument.isPlain : Argument → Bool
  | .flag _ _ => false
  | .plain _ => true

/-- Whether an argument is the flag given. -/
def Argument.isFlag (flag : Flag) : Argument → Bool
  | .flag other _ => other == flag
  | .plain _ => false

/-- The argument after those read, the last of which comes first, unless it cannot stand there. -/
def accept (operand : Operand) (read : List Argument) (a : Argument) :
    Except Refusal (List Argument) :=
  match a with
  | .flag .help _ => .error .help
  | .flag .version _ => .error .version
  | .flag flag value =>
    if (read.any (·.isFlag flag) && !flag.mayRepeat) || (flag.isPath && value = some "") then
      .error .usage
    else .ok (a :: read)
  | .plain text =>
    if operand = .absent || read.any (·.isPlain) || (operand = .path && text = "") then
      .error .usage
    else .ok (a :: read)

/-- What is left to read: nothing, or the value of a flag. -/
abbrev Pending := Option Flag

/-- Reads a flag by its name and perhaps its value, after the dashes. -/
def readNamed (known : List Flag) (operand : Operand) (read : List Argument) (text : List Char) :
    Except Refusal (List Argument × Pending) :=
  let name := text.takeWhile (· ≠ '=')
  match known.find? fun flag => flag.name.toList == name, text.dropWhile (· ≠ '=') with
  | none, _ => .error .usage
  | some flag, '=' :: value =>
    if flag.hasValue then (accept operand read (.flag flag (some (.ofList value)))).map (·, none)
    else .error .usage
  | some flag, _ =>
    if flag.hasValue then .ok (read, some flag)
    else (accept operand read (.flag flag none)).map (·, none)

/--
Reads flags by their letters, after the dash. The value of a flag may follow, with or without `=`.
-/
def readLetters (known : List Flag) (operand : Operand) (read : List Argument) :
    List Char → Except Refusal (List Argument × Pending)
  | [] => .ok (read, none)
  | c :: rest =>
    match known.find? fun flag => flag.letter? == some c with
    | none => .error .usage
    | some flag =>
      if flag.hasValue then
        match rest with
        | [] => .ok (read, some flag)
        | '=' :: value => (accept operand read (.flag flag (some (.ofList value)))).map (·, none)
        | value => (accept operand read (.flag flag (some (.ofList value)))).map (·, none)
      else do readLetters known operand (← accept operand read (.flag flag none)) rest

/-- Whether an argument is written like a flag. A dash alone is not. -/
def isFlag (text : List Char) : Bool :=
  match text with
  | '-' :: _ :: _ => true
  | _ => false

/--
Reads arguments: all of them for a command, and otherwise up to the first that is no flag. Gives
what was read, in order, and the arguments that are left. After two dashes alone none is a flag.
-/
def scan (known : List Flag) (operand : Operand) :
    Pending → List Argument → List String → Except Refusal (List Argument × List String)
  | none, read, [] => .ok (read.reverse, [])
  | some _, _, [] => .error .usage
  | pending, read, arg :: more =>
    match pending, arg.toList with
    | some flag, text =>
      if isFlag text then .error .usage
      else do scan known operand none (← accept operand read (.flag flag (some arg))) more
    | none, ['-', '-'] =>
      if operand = .absent then .error .usage
      else do
        let read ← more.foldlM (fun read arg => accept operand read (.plain arg)) read
        return (read.reverse, [])
    | none, '-' :: '-' :: name => do
      let (read, pending) ← readNamed known operand read name
      scan known operand pending read more
    | none, '-' :: c :: letters => do
      let (read, pending) ← readLetters known operand read (c :: letters)
      scan known operand pending read more
    | none, _ =>
      if operand = .absent then .ok (read.reverse, arg :: more)
      else do scan known operand none (← accept operand read (.plain arg)) more

/-! ### Commands -/

/-- What is to be done. -/
inductive Action where
  /-- Check a link. -/
  | parse (url : String)
  /-- Extract the tokens of an export. -/
  | tokens (path : String) (url out : Option String)
  /-- Generate a project from an export. -/
  | generate (path : String) (url out : Option String) (nodes : List String) (screen js : Bool)
  deriving DecidableEq, Repr

/-- An action with the settings it uses. -/
structure Invocation where
  /-- The path of the settings. -/
  config : Option String
  /-- The action. -/
  action : Action
  deriving DecidableEq, Repr

/-- The values of a flag, in order. -/
def valuesOf (flag : Flag) (arguments : List Argument) : List String :=
  arguments.filterMap fun
    | .flag other value => if other = flag then value else none
    | .plain _ => none

/-- Whether a flag is given. -/
def isGiven (flag : Flag) (arguments : List Argument) : Bool := arguments.any (·.isFlag flag)

/-- The arguments that are no flags. -/
def plainOf (arguments : List Argument) : List String :=
  arguments.filterMap fun
    | .flag _ _ => none
    | .plain text => some text

/-- The flags before the name of a command. -/
def commonFlags : List Flag := [.verbose, .config, .help, .version]

/-- The flags of each command, and what it takes besides. -/
def command? : String → Option (List Flag × Operand)
  | "parse" => some ([.verbose, .config, .help], .text)
  | "tokens" => some ([.verbose, .config, .url, .out, .help], .path)
  | "generate" => some ([.verbose, .config, .url, .node, .out, .screen, .js, .help], .path)
  | _ => none

/-- The action of a command with its arguments, one of which is no flag. -/
def actionOf (name : String) (arguments : List Argument) : Except Refusal Action :=
  let url := (valuesOf .url arguments).head?
  let out := (valuesOf .out arguments).head?
  match name, plainOf arguments with
  | "parse", [url] => .ok (.parse url)
  | "tokens", [path] => .ok (.tokens path url out)
  | "generate", [path] =>
    .ok (.generate path url out (valuesOf .node arguments) (isGiven .screen arguments)
      (isGiven .js arguments))
  | _, _ => .error .usage

/-- Whether help can be had about these names: none of them, or that of one command. -/
def isTopic : List String → Bool
  | [] => true
  | [name] => name = "help" || (command? name).isSome
  | _ => false

/-- The invocation that arguments make up. The settings named last, after the command, are used. -/
def read (args : List String) : Except Refusal Invocation := do
  let (common, rest) ← scan commonFlags .absent none [] args
  match rest with
  | [] => .error .usage
  | "help" :: about => .error (if isTopic about then .help else .usage)
  | name :: more =>
    match command? name with
    | none => .error .usage
    | some (known, operand) =>
      let (own, _) ← scan known operand none [] more
      return {
        config := (valuesOf .config (common ++ own)).getLast?
        action := ← actionOf name own }

end Handoff.Command
