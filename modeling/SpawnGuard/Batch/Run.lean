import SpawnGuard.Batch.ListingFile
import SpawnGuard.Files.Walk
import SpawnGuard.Listing.Printer
import SpawnGuard.Listing.Reader

/-!
Patching a file, or all listings below a directory. The files are taken one after the other, and
the first that fails ends the run; what was written before it stays.
-/
namespace SpawnGuard.Batch

structure Settings where
  input : Path
  output : Path
  hook : String
  options : Options
  debug : Bool

structure Report where
  relative : Path
  outcome : Outcome
  deriving DecidableEq, Repr

namespace Report

def line (report : Report) : String := s!"{report.relative.text}: {report.outcome.describe}"

def entry (report : Report) : Log.Entry := ⟨.info, .batch, report.line⟩

end Report

structure Source where
  path : Path
  relative : Path
  deriving DecidableEq, Repr

def patchText (patches : Patches) (path : Path) (text : String) :
    Except BatchError (String × Outcome × Log) :=
  match Listing.read (ListingFile.methodName path) text with
  | .error error => .error (.listing path error)
  | .ok body =>
    match patches.transpile body with
    | .error overflow => .error (.labels overflow)
    | .ok (patched, outcome) => .ok (Listing.print patched, outcome, [outcome.entry body.name])

def reportText (patches : Patches) (reports : List Report) : String :=
  String.join <| List.map (· ++ "\n") <|
    [s!"hook: {patches.hook}"] ++ patches.active.map ("patch: " ++ ·) ++ reports.map Report.line

def reportName : Path := ⟨"patch_report.txt"⟩

def reportDirectory (settings : Settings) (single : Bool) : Path :=
  if single then settings.output.parent?.getD ⟨""⟩ else settings.output

def destination (settings : Settings) (single : Bool) (source : Source) : Path :=
  if single then settings.output else settings.output.join source.relative

def isListing (entry : WalkEntry) : Bool :=
  entry.isFile && entry.names.getLast?.any ListingFile.isListing

def listingsBelow (input : Path) (entries : List WalkEntry) : List Source :=
  (entries.filter isListing).map fun entry =>
    let relative := Path.ofNames false entry.names
    ⟨input.join relative, relative⟩

/-- The message about a file that failed; a count of labels that overflows ends the run at once. -/
def failure (path : Path) (error : BatchError) : Log :=
  match error with
  | .labels _ => []
  | error => [⟨.error, .batch, s!"failed on {path.text}: {error.message}"⟩]

variable {m : Type → Type} [Monad m] [FileSystem m]

def writeReport (patches : Patches) (directory : Path) (reports : List Report) :
    m (Except TextFault Unit) := do
  match ← FileSystem.makeDirectories directory with
  | .error fault => return .error (.file fault)
  | .ok () =>
    let content := (reportText patches reports).toUTF8
    return (← FileSystem.write (directory.join reportName) content).mapError .file

def sources [Walker m] (input : Path) : m (Except BatchError (Bool × List Source)) := do
  match ← FileSystem.kind input with
  | some .file =>
    match input.fileName? with
    | some name => return .ok (true, [⟨input, ⟨name⟩⟩])
    | none => return .error (.config (.badInput input))
  | none => return .error (.config (.missingInput input))
  | some .directory =>
    match Walk.collect (← Walker.walk input) with
    | .error fault => return .error (.walk fault)
    | .ok entries => return .ok (false, listingsBelow input entries)

variable [Compressor]

def patchFile (patches : Patches) (source target : Path) :
    m (Except BatchError Outcome × Log) := do
  match ← ListingFile.read source with
  | .error fault => return (.error (.text fault), [])
  | .ok text =>
    match patchText patches source text with
    | .error error => return (.error error, [])
    | .ok (patched, outcome, log) =>
      match ← ListingFile.write target patched with
      | .error fault => return (.error (.text fault), log)
      | .ok () => return (.ok outcome, log)

def patchAll (patches : Patches) (settings : Settings) (single : Bool) :
    List Source → m (Except BatchError (List Report) × Log)
  | [] => return (.ok [], [])
  | source :: rest => do
    let (result, log) ← patchFile patches source.path (destination settings single source)
    match result with
    | .error error => return (.error error, log ++ failure source.path error)
    | .ok outcome => do
      let report : Report := ⟨source.relative, outcome⟩
      let (others, later) ← patchAll patches settings single rest
      return (others.map (report :: ·), log ++ report.entry :: later)

variable [Walker m]

def runWith (patches : Patches) (settings : Settings) :
    m (Except BatchError (List Report) × Log) := do
  match ← sources settings.input with
  | .error error => return (.error error, [])
  | .ok (_, []) => return (.error (.config (.noListings settings.input)), [])
  | .ok (single, files) =>
    let (result, log) ← patchAll patches settings single files
    match result with
    | .error error => return (.error error, log)
    | .ok reports =>
      if settings.debug then
        match ← writeReport patches (reportDirectory settings single) reports with
        | .error fault => return (.error (.text fault), log)
        | .ok () => return (.ok reports, log)
      else return (.ok reports, log)

def run (settings : Settings) : m (Except BatchError (List Report) × Log) := do
  let loaded := Patches.entry settings.options
  match (Patches.ofOptions settings.options).withHook settings.hook with
  | .error error => return (.error (.config (.hook error)), [loaded])
  | .ok patches =>
    let (result, log) ← runWith patches settings
    return (result, loaded :: log)

end SpawnGuard.Batch
