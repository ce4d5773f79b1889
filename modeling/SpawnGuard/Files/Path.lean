/-!
Paths as text, with slashes between names. A path is shown as it was written; only questions
about it look at its names.
-/
namespace SpawnGuard

structure Path where
  text : String
  deriving DecidableEq, Repr

namespace Path

def pieces : List Char → List (List Char)
  | [] => [[]]
  | c :: rest =>
    if c = '/' then [] :: pieces rest
    else
      match pieces rest with
      | [] => [[c]]
      | piece :: others => (c :: piece) :: others

def rawNames (path : Path) : List String := (pieces path.text.toList).map String.ofList

def isAbsolute (path : Path) : Bool := path.text.toList.head? = some '/'

/-- The names that count: empty ones never do, and a dot only at the start of a relative path. -/
def names (path : Path) : List String :=
  let counts (name : String) : Bool := name ≠ "" && name ≠ "."
  match path.rawNames with
  | "." :: rest => "." :: rest.filter counts
  | names => names.filter counts

def ofNames (absolute : Bool) (names : List String) : Path :=
  ⟨(if absolute then "/" else "") ++ "/".intercalate names⟩

def parent? (path : Path) : Option Path :=
  if path.names.isEmpty then none else some (ofNames path.isAbsolute path.names.dropLast)

def fileName? (path : Path) : Option String :=
  match path.names.getLast? with
  | some name => if name = ".." ∨ name = "." then none else some name
  | none => none

/-- What follows the last dot of a file name, if something stands in front of that dot. -/
def extension? (path : Path) : Option String :=
  path.fileName?.bind fun name =>
    let (after, before) := name.toList.reverse.span (· ≠ '.')
    match before with
    | [] | [_] => none
    | _ => some (String.ofList after.reverse)

def join (base path : Path) : Path :=
  if path.isAbsolute then path
  else if base.text = "" ∨ base.text.toList.getLast? = some '/' then ⟨base.text ++ path.text⟩
  else ⟨base.text ++ "/" ++ path.text⟩

/-- What some names lead to from a path; none lead to the path itself. -/
def below (base : Path) (names : List String) : Path :=
  if names.isEmpty then base else base.join (ofNames false names)

def ancestors (path : Path) : List Path :=
  let names := path.names
  path :: (List.range names.length).map fun dropped =>
    ofNames path.isAbsolute (names.take (names.length - 1 - dropped))

end Path

end SpawnGuard
