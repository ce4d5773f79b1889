import SpawnGuard.Files.Path

/-!
What the program asks of a file system, and what it builds from that.
-/
namespace SpawnGuard

inductive FileKind where
  | file
  | directory
  deriving DecidableEq, Repr

inductive FileFault where
  | notFound
  | alreadyExists
  | notDirectory
  | isDirectory
  | nameTooLong
  | zeroInName
  | other (text : String)
  deriving DecidableEq, Repr

namespace FileFault

def message : FileFault → String
  | notFound => "No such file or directory (os error 2)"
  | alreadyExists => "File exists (os error 17)"
  | notDirectory => "Not a directory (os error 20)"
  | isDirectory => "Is a directory (os error 21)"
  | nameTooLong => "File name too long (os error 36)"
  | zeroInName => "file name contained an unexpected NUL byte"
  | other text => text

end FileFault

class FileSystem (m : Type → Type) where
  kind : Path → m (Option FileKind)
  read : Path → m (Except FileFault ByteArray)
  write : Path → ByteArray → m (Except FileFault Unit)
  makeDirectory : Path → m (Except FileFault Unit)

namespace FileSystem

variable {m : Type → Type} [Monad m] [FileSystem m]

def isFile (path : Path) : m Bool := do
  return (← kind path) = some .file

def isDirectory (path : Path) : m Bool := do
  return (← kind path) = some .directory

def settleDirectory (path : Path) : Except FileFault Unit → m (Except FileFault Unit)
  | .ok () => return .ok ()
  | .error fault => do
    if ← isDirectory path then return .ok () else return .error fault

/-- Makes the first of some directories, each of which lies in the next; those after it are made
only as far as they are missing. -/
def makeNested : List Path → m (Except FileFault Unit)
  | [] => return .ok ()
  | path :: outer => do
    if path.text = "" then return .ok ()
    else
      match ← makeDirectory path with
      | .error .notFound =>
        match ← makeNested outer with
        | .error fault => return .error fault
        | .ok () => settleDirectory path (← makeDirectory path)
      | answer => settleDirectory path answer

def makeDirectories (path : Path) : m (Except FileFault Unit) := makeNested path.ancestors

end FileSystem

end SpawnGuard
