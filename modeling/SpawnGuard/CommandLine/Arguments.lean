import SpawnGuard.Files.Path
import SpawnGuard.Patch.Transpile

/-!
The arguments of the command. Options have long names and may be given once; a value follows its
option after an equals sign or as the next argument, where it may not look like an option itself.
-/
namespace SpawnGuard.CommandLine

structure Arguments where
  input? : Option Path := none
  output? : Option Path := none
  hook? : Option String := none
  debug : Bool := false
  showOptions : Bool := false
  optionsFile? : Option Path := none
  deriving DecidableEq, Repr

inductive Request where
  | run (arguments : Arguments)
  | version
  | help
  | misuse
  deriving DecidableEq, Repr

namespace Arguments

def notePath (old : Option Path) (value : String) (note : Path → Arguments) : Option Arguments :=
  if old.isSome ∨ value = "" then none else some (note ⟨value⟩)

def noteValue? (arguments : Arguments) (option value : String) : Option Arguments :=
  match option with
  | "input" => notePath arguments.input? value fun path => { arguments with input? := some path }
  | "output" => notePath arguments.output? value fun path => { arguments with output? := some path }
  | "options-file" =>
    notePath arguments.optionsFile? value fun path =>
      { arguments with optionsFile? := some path }
  | "hook" =>
    if arguments.hook?.isSome then none else some { arguments with hook? := some value }
  | _ => none

def noteFlag? (arguments : Arguments) (option : String) : Option Arguments :=
  match option with
  | "debug" => if arguments.debug then none else some { arguments with debug := true }
  | "show-options" =>
    if arguments.showOptions then none else some { arguments with showOptions := true }
  | _ => none

def takesValue (option : String) : Bool :=
  option = "input" || option = "output" || option = "options-file" || option = "hook"

/-- What the arguments ask for once all are read. Input and output are needed unless the options
are only to be shown. -/
def request (arguments : Arguments) : Request :=
  if arguments.showOptions ∨ (arguments.input?.isSome ∧ arguments.output?.isSome) then
    .run arguments
  else .misuse

end Arguments

def isDashed (argument : String) : Bool :=
  match argument.toList with
  | '-' :: _ :: _ => true
  | _ => false

inductive Form where
  /-- Two dashes alone: all that follows is no option. -/
  | stop
  | option (name : String) (value? : Option String)
  | letter (c : Char)
  | bare
  deriving DecidableEq, Repr

def Form.ofArgument (argument : String) : Form :=
  match argument.toList with
  | ['-', '-'] => stop
  | '-' :: '-' :: rest =>
    match rest.span (· ≠ '=') with
    | (name, []) => option (String.ofList name) none
    | (name, _ :: value) => option (String.ofList name) (some (String.ofList value))
  | '-' :: c :: _ => letter c
  | _ => bare

/-- Reads arguments from left to right; the first that asks for the version or for help, or is in
its place no argument at all, decides. -/
def readArguments (arguments : Arguments) : List String → Request
  | [] => arguments.request
  | argument :: rest =>
    match Form.ofArgument argument with
    | .stop => if rest.isEmpty then arguments.request else .misuse
    | .letter 'V' => .version
    | .letter 'h' => .help
    | .letter _ | .bare => .misuse
    | .option "version" none => .version
    | .option "help" none => .help
    | .option name (some value) =>
      match arguments.noteValue? name value with
      | some arguments => readArguments arguments rest
      | none => .misuse
    | .option name none =>
      if Arguments.takesValue name then
        match rest with
        | value :: rest =>
          if isDashed value then .misuse
          else
            match arguments.noteValue? name value with
            | some arguments => readArguments arguments rest
            | none => .misuse
        | [] => .misuse
      else
        match arguments.noteFlag? name with
        | some arguments => readArguments arguments rest
        | none => .misuse

def Request.ofArguments (arguments : List String) : Request := readArguments {} arguments

end SpawnGuard.CommandLine
