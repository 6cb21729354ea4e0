/-
  TftpUpload/CommandLine/Grammar.lean
  ===================================
  **Options and arguments of a program.**

  Arguments are read from left to right.  One that begins with a dash gives an
  option, until `--` ends the options; an option that takes a value takes the
  next argument, whatever it is, and may be given once.  The others fill the
  program's arguments in order.  A request for help is granted once everything
  has been read, and no option may follow it.
-/
import TftpUpload.Text.Number

namespace TftpUpload.CommandLine

open Text

/-! ### Grammars -/

inductive Kind where
  | switch
  | text
  | number (limit : Nat)
deriving DecidableEq, Repr

structure OptionSpec where
  long : String
  short : Option Char := none
  kind : Kind
  help : String
deriving DecidableEq, Repr

inductive Arity where
  | one
  | optional
  | many
deriving DecidableEq, Repr

structure ArgumentSpec where
  name : String
  arity : Arity
  help : String
deriving DecidableEq, Repr

/-- What a program accepts, and what it says about that. -/
structure Grammar where
  program : String
  description : String
  options : List OptionSpec
  arguments : List ArgumentSpec
  /-- What an example does, and its command. -/
  examples : List (String × String)
  note : String
deriving DecidableEq, Repr

/-! ### Reading

Arguments are read from left to right, once.  What an argument is depends only on those before
it. -/

inductive UsageError where
  | unrecognized (argument : String)
  | noValue (option : String)
  | badValue (option value reason : String)
  | trailing
  | missing (names : List String)
deriving DecidableEq, Repr

def UsageError.message : UsageError → String
  | unrecognized argument => "Unrecognized argument: " ++ argument ++ "\n"
  | noValue option => "No value provided for option '" ++ option ++ "'.\n"
  | badValue option value reason =>
    "Error parsing option '" ++ option ++ "' with value '" ++ value ++ "': " ++ reason ++ "\n"
  | trailing => "Trailing arguments are not allowed after `help`."
  | missing names =>
    "Required positional arguments not provided:" ++
      String.join (names.map fun name => "\n    " ++ name) ++ "\n"

structure Given where
  switches : List String := []
  values : List (String × String) := []
  arguments : List String := []
  help : Bool := false
  optionsEnded : Bool := false
deriving DecidableEq, Repr

namespace Given

def has (g : Given) (long : String) : Bool := g.switches.contains long

def value? (g : Given) (long : String) : Option String := g.values.lookup long

/-- The number of an option that has been checked, or a default. -/
def number (g : Given) (long : String) (limit default : Nat) : Nat :=
  match (g.value? long).map fun text => readNatural limit text.toList with
  | some (.ok n) => n
  | _ => default

end Given

/-- A value is what the option takes. -/
def Kind.check (kind : Kind) (value : String) : Except String Unit :=
  match kind with
  | switch => .ok ()
  | text => .ok ()
  | number limit =>
    match readNatural limit value.toList with
    | .ok _ => .ok ()
    | .error e => .error e.message

/-- The option that an argument names. -/
def Grammar.option? (g : Grammar) (argument : String) : Option OptionSpec :=
  g.options.find? fun o =>
    argument == "--" ++ o.long ||
      match o.short with
      | some c => argument == String.ofList ['-', c]
      | none => false

def Grammar.isOpen (g : Grammar) : Bool := g.arguments.any (·.arity == .many)

/-- Takes the value of an option that is given as `name`. -/
def Given.put (given : Given) (o : OptionSpec) (name value : String) : Except UsageError Given :=
  if (given.value? o.long).isSome then .error (.badValue name value "duplicate values provided")
  else
    match o.kind.check value with
    | .error reason => .error (.badValue name value reason)
    | .ok () => .ok { given with values := (o.long, value) :: given.values }

def Grammar.readFrom (g : Grammar) : Given → List String → Except UsageError Given
  | given, [] => .ok given
  | given, argument :: rest =>
    let dashed := argument.toList.head? == some '-'
    if !given.optionsEnded && (argument == "--help" || argument == "help") then
      g.readFrom { given with help := true } rest
    else if !given.optionsEnded && dashed then
      if argument == "--" then g.readFrom { given with optionsEnded := true } rest
      else if given.help then .error .trailing
      else
        match g.option? argument with
        | none => .error (.unrecognized argument)
        | some o =>
          if o.kind = .switch then
            g.readFrom { given with switches := o.long :: given.switches } rest
          else
            match rest with
            | [] => .error (.noValue argument)
            | value :: rest' =>
              match given.put o argument value with
              | .error e => .error e
              | .ok given' => g.readFrom given' rest'
    else if given.arguments.length < g.arguments.length || g.isOpen then
      g.readFrom { given with arguments := given.arguments ++ [argument] } rest
    else .error (.unrecognized argument)

def Grammar.missing (g : Grammar) (given : Given) : List String :=
  ((g.arguments.drop given.arguments.length).filter (·.arity == .one)).map (·.name)

/-- Reads all arguments.  A request for help stands for itself. -/
def Grammar.read (g : Grammar) (arguments : List String) : Except UsageError Given :=
  match g.readFrom {} arguments with
  | .error e => .error e
  | .ok given =>
    if given.help || (g.missing given).isEmpty then .ok given
    else .error (.missing (g.missing given))

/-! ### Help -/

def OptionSpec.usage (o : OptionSpec) : String :=
  let name := match o.short with
    | some c => String.ofList ['-', c]
    | none => "--" ++ o.long
  match o.kind with
  | .switch => "[" ++ name ++ "]"
  | _ => "[" ++ name ++ " <" ++ o.long ++ ">]"

def ArgumentSpec.usage (a : ArgumentSpec) : String :=
  match a.arity with
  | .one => "<" ++ a.name ++ ">"
  | .optional => "[<" ++ a.name ++ ">]"
  | .many => "[<" ++ a.name ++ "...>]"

def OptionSpec.names (o : OptionSpec) : String :=
  match o.short with
  | some c => String.ofList ['-', c] ++ ", --" ++ o.long
  | none => "--" ++ o.long

/-- The column in which descriptions begin, behind the indentation. -/
def descriptionColumn : Nat := 18

def described (name help : String) : String :=
  "  " ++ name.pushn ' ' (descriptionColumn - name.length) ++ help

def Grammar.helpText (g : Grammar) : String :=
  let usage := " ".intercalate
    (["Usage:", g.program] ++ g.options.map OptionSpec.usage ++ ["[--]"] ++
      g.arguments.map ArgumentSpec.usage)
  "\n".intercalate
    ([usage, "", g.description, "", "Positional Arguments:"] ++
      g.arguments.map (fun a => described a.name a.help) ++
      ["", "Options:"] ++
      g.options.map (fun o => described o.names o.help) ++
      [described "--help, help" "display usage information", "", "Examples:"] ++
      g.examples.flatMap (fun (what, command) => ["  " ++ what, "    " ++ command]) ++
      ["", "Notes:", "  " ++ g.note, ""])

end TftpUpload.CommandLine
