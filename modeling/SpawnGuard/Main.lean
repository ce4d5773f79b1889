import SpawnGuard.CommandLine.Command
import SpawnGuard.Files.Gzip

/-!
The command on the files of the machine it runs on.
-/
namespace SpawnGuard.Main

def faultOf : IO.Error → FileFault
  | .noFileOrDirectory .. => .notFound
  | .alreadyExists .. => .alreadyExists
  | .inappropriateType _ code _ => if code = 21 then .isDirectory else .notDirectory
  | .invalidArgument _ 36 _ => .nameTooLong
  | error => .other (toString error)

def guarded {α : Type} (action : IO α) : IO (Except FileFault α) := do
  match ← action.toBaseIO with
  | .ok value => return .ok value
  | .error error => return .error (faultOf error)

instance : FileSystem IO where
  kind path := do
    match ← ((System.mkFilePath [path.text]).metadata).toBaseIO with
    | .ok metadata =>
      match metadata.type with
      | .file => return some .file
      | .dir => return some .directory
      | _ => return none
    | .error _ => return none
  read path := guarded (IO.FS.readBinFile path.text)
  write path content := guarded (IO.FS.writeBinFile path.text content)
  makeDirectory path := guarded (IO.FS.createDir path.text)

partial def walkFrom (input : Path) (names : List String) :
    IO (List (Except String WalkEntry)) := do
  let path := input.below names
  match ← guarded (System.mkFilePath [path.text]).readDir with
  | .error fault => return [.ok ⟨names, false⟩, .error (Walk.unread path fault)]
  | .ok entries =>
    let inside := (entries.toList.map (·.fileName)).mergeSort fun name other => name ≤ other
    let later ← inside.mapM fun name => do
      let inner := names ++ [name]
      let path := input.below inner
      match ← guarded (System.mkFilePath [path.text]).symlinkMetadata with
      | .error fault => return [.error (Walk.unread path fault)]
      | .ok metadata =>
        match metadata.type with
        | .dir => walkFrom input inner
        | .file => return [.ok ⟨inner, true⟩]
        | _ => return [.ok ⟨inner, false⟩]
    return .ok ⟨names, false⟩ :: later.flatten

instance : Walker IO where
  walk input := walkFrom input []

def home : IO Home := do
  let directory? := (← IO.getEnv "HOME").map Path.mk
  let config? := (← IO.getEnv "XDG_CONFIG_HOME").map Path.mk
  return { directory?, config? }

def run (arguments : List String) : IO UInt32 := do
  let result ← CommandLine.command (m := IO) (← home) arguments
  for entry in result.log do
    IO.eprintln entry.line
  IO.print result.output
  IO.eprint result.errors
  return result.code

end SpawnGuard.Main

def main (arguments : List String) : IO UInt32 := SpawnGuard.Main.run arguments
