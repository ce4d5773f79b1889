import SpawnGuard.Files.System

/-!
A tree of files held in memory. Every file and directory is known by the names that lead to it
from the root; a path is followed name by name, and only directories can be passed through.
-/
namespace SpawnGuard

inductive FileEntry where
  | file (content : ByteArray)
  | directory

structure FileTree where
  entries : List (List String × FileEntry)
  here : List String

namespace FileTree

def empty (here : List String) : FileTree := ⟨[], here⟩

def find? (tree : FileTree) (names : List String) : Option FileEntry :=
  if names.isEmpty then some .directory else tree.entries.lookup names

def isDirectory (tree : FileTree) (names : List String) : Bool :=
  match tree.find? names with
  | some .directory => true
  | _ => false

def put (tree : FileTree) (names : List String) (entry : FileEntry) : FileTree :=
  { tree with entries := (names, entry) :: tree.entries.filter (·.1 ≠ names) }

def nameLimit : Nat := 255

def pathLimit : Nat := 4095

def checkPath (path : Path) : Except FileFault Unit :=
  if path.text.toList.contains (Char.ofNat 0) then .error .zeroInName
  else if path.text = "" then .error .notFound
  else if pathLimit < path.text.utf8ByteSize then .error .nameTooLong
  else .ok ()

def follow (tree : FileTree) (place : List String) : List String → Except FileFault (List String)
  | [] => .ok place
  | name :: rest =>
    if ¬ tree.isDirectory place then .error .notDirectory
    else if name = "" ∨ name = "." then follow tree place rest
    else if name = ".." then follow tree place.dropLast rest
    else if nameLimit < name.utf8ByteSize then .error .nameTooLong
    else if (tree.find? (place ++ [name])).isNone then .error .notFound
    else follow tree (place ++ [name]) rest

def start (tree : FileTree) (path : Path) : List String :=
  if path.isAbsolute then [] else tree.here

def resolve (tree : FileTree) (path : Path) : Except FileFault (List String) := do
  checkPath path
  tree.follow (tree.start path) path.rawNames

/-- The directory in which the last name of a path is to be found, that name, and whether slashes
follow it. -/
def resolveParent (tree : FileTree) (path : Path) :
    Except FileFault (List String × String × Bool) := do
  checkPath path
  match path.rawNames.reverse.span (· = "") with
  | (_, []) => .ok ([], "", true)
  | (slashes, last :: outer) => do
    let place ← tree.follow (tree.start path) outer.reverse
    if tree.isDirectory place then .ok (place, last, ¬ slashes.isEmpty)
    else .error .notDirectory

def isStep (name : String) : Bool := name = "" || name = "." || name = ".."

def kindOf (tree : FileTree) (path : Path) : Option FileKind :=
  match tree.resolve path with
  | .error _ => none
  | .ok names =>
    match tree.find? names with
    | some .directory => some .directory
    | some (.file _) => some .file
    | none => none

def readFile (tree : FileTree) (path : Path) : Except FileFault ByteArray := do
  let names ← tree.resolve path
  match tree.find? names with
  | some (.file content) => .ok content
  | some .directory => .error .isDirectory
  | none => .error .notFound

def writeFile (tree : FileTree) (path : Path) (content : ByteArray) :
    Except FileFault FileTree := do
  let (place, name, slashes) ← tree.resolveParent path
  if slashes ∨ isStep name then .error .isDirectory
  else if nameLimit < name.utf8ByteSize then .error .nameTooLong
  else if tree.isDirectory (place ++ [name]) then .error .isDirectory
  else .ok (tree.put (place ++ [name]) (.file content))

def makeDirectory (tree : FileTree) (path : Path) : Except FileFault FileTree := do
  let (place, name, _) ← tree.resolveParent path
  if isStep name then .error .alreadyExists
  else if nameLimit < name.utf8ByteSize then .error .nameTooLong
  else if (tree.find? (place ++ [name])).isSome then .error .alreadyExists
  else .ok (tree.put (place ++ [name]) .directory)

def change (update : FileTree → Except FileFault FileTree) :
    StateM FileTree (Except FileFault Unit) := fun tree =>
  match update tree with
  | .ok tree => (.ok (), tree)
  | .error fault => (.error fault, tree)

instance : FileSystem (StateM FileTree) where
  kind path := fun tree => (tree.kindOf path, tree)
  read path := fun tree => (tree.readFile path, tree)
  write path content := change (·.writeFile path content)
  makeDirectory path := change (·.makeDirectory path)

end FileTree

end SpawnGuard
