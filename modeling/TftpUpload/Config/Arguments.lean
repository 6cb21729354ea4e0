/-
  TftpUpload/Config/Arguments.lean
  ================================
  **Configuration and command line together.**

  The options of a configuration become arguments in front of those of the
  command line, unless the command line gives the same option.  A lone dash on
  the command line stands for standard input; in front of the first one an end
  of options is put, if there is none before it, so that it is not taken for an
  option.
-/
import TftpUpload.Config.Entry

namespace TftpUpload.Config

/-- One-letter options with the long names that they stand for. -/
abbrev Aliases := List (Char × String)

def endOfOptions : String := "--"

def standardInput : String := "-"

/-- The long name of the option that an argument gives, if it gives one. -/
def optionName? (aliases : Aliases) (argument : String) : Option String :=
  match argument.toList with
  | '-' :: '-' :: long => some (String.ofList (long.takeWhile (· != '=')))
  | ['-', flag] => aliases.lookup flag
  | _ => none

def optionsGiven (aliases : Aliases) (cli : List String) : List String :=
  (cli.takeWhile (· != endOfOptions)).filterMap (optionName? aliases)

def Entry.arguments (e : Entry) : List String := ("--" ++ e.key) :: e.value.toList

/-- Puts an end of options in front of the first lone dash. -/
def protectStandardInput : List String → List String
  | [] => []
  | argument :: rest =>
    if argument = endOfOptions then argument :: rest
    else if argument = standardInput then endOfOptions :: argument :: rest
    else argument :: protectStandardInput rest

/-- The arguments of a configuration that the command line does not override. -/
def fileArguments (file : List Entry) (given : List String) : List String :=
  (file.filter fun e => !given.contains e.key).flatMap Entry.arguments

/-- All arguments, those of the configuration first. -/
def mergeArguments (file : List Entry) (cli : List String) (aliases : Aliases) : List String :=
  fileArguments file (optionsGiven aliases cli) ++ protectStandardInput cli

end TftpUpload.Config
