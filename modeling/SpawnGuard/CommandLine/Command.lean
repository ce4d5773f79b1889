import SpawnGuard.Batch.Run
import SpawnGuard.CommandLine.Arguments
import SpawnGuard.Mod.OptionsFile

/-!
The command: what it prints and with which code it ends, for its arguments and the files it finds.
-/
namespace SpawnGuard.CommandLine

def commandName : String := "airflow-patch"

def versionLine : String := s!"{commandName} 0.1.0\n"

def helpText : String :=
  "Patch SimCellOccupier.OnSpawn listings for liquid on airflow tiles\n\n" ++
  s!"Usage: {commandName} [OPTIONS]\n\nOptions:\n" ++
  "      --input <INPUT>\n" ++
  "      --output <OUTPUT>\n" ++
  s!"      --hook <HOOK>          [default: {defaultHook}]\n" ++
  "      --debug\n" ++
  "      --show-options\n" ++
  "      --options-file <JSON>\n" ++
  "  -h, --help                 Print help\n" ++
  "  -V, --version              Print version\n"

def misuseText : String :=
  s!"error: the arguments are not understood\n\nFor more information, try '--help'.\n"

structure Result where
  code : UInt32
  output : String := ""
  log : Log := []
  errors : String := ""

def isShown (debug : Bool) (entry : Log.Entry) : Bool := debug || entry.level ≠ .debug

def optionsText (place? : Option Path) (options : Options) : String :=
  let place := place?.elim "" fun path => s!"options file: {path.text}\n"
  place ++ options.text ++ "\n" ++
    String.join ((Patches.ofOptions options).active.map fun name => s!"  {name}\n")

variable {m : Type → Type} [Monad m] [FileSystem m]

def loadOptions (home : Home) (arguments : Arguments) : m (Options × Log) :=
  match arguments.optionsFile? with
  | some path => OptionsFile.load path
  | none => OptionsFile.loadUsual home

variable [Walker m] [Compressor]

def patch (arguments : Arguments) (options : Options) : m Result := do
  let (result, log) ← Batch.run
    { input := arguments.input?.getD ⟨""⟩
      output := arguments.output?.getD ⟨""⟩
      hook := arguments.hook?.getD defaultHook
      options
      debug := arguments.debug }
  match result with
  | .error error => return { code := 1, log, errors := s!"Error: {error.message}\n" }
  | .ok reports =>
    let patched := (reports.filter (·.outcome.isPatched)).length
    return { code := 0, log, output := s!"{patched} of {reports.length} listings patched\n" }

def perform (home : Home) (arguments : Arguments) : m Result := do
  let (options, loading) ← loadOptions home arguments
  let result ←
    if arguments.showOptions then
      let place? := arguments.optionsFile?.or (OptionsFile.path? home)
      pure { code := 0, log := [Patches.entry options], output := optionsText place? options }
    else patch arguments options
  return { result with log := (loading ++ result.log).filter (isShown arguments.debug) }

def command (home : Home) (arguments : List String) : m Result :=
  match Request.ofArguments arguments with
  | .run arguments => perform home arguments
  | .version => return { code := 0, output := versionLine }
  | .help => return { code := 0, output := helpText }
  | .misuse => return { code := 2, errors := misuseText }

end SpawnGuard.CommandLine
