import SpawnGuard.Batch.Error
import SpawnGuard.Files.Compressor

/-!
Files that hold listings: which names they have, and how their text is stored. A file whose name
ends in `.gz`, in any case, is a gzip file.
-/
namespace SpawnGuard.ListingFile

def hasEnding (ending name : String) : Bool := ending.toList.isSuffixOf name.toList

def isListing (name : String) : Bool := hasEnding ".il" name || hasEnding ".il.gz" name

def isGzip (path : Path) : Bool :=
  match path.extension? with
  | some ending => ending.toList.map Char.toLower = "gz".toList
  | none => false

/-- A text, given in reverse, without an ending as often as it ends so; `fuel` bounds how often. -/
def dropReversed (ending : List Char) (fuel : Nat) (text : List Char) : List Char :=
  match fuel with
  | 0 => text
  | fuel + 1 =>
    if ending.isPrefixOf text then dropReversed ending fuel (text.drop ending.length) else text

def dropEnding (ending name : List Char) : List Char :=
  (dropReversed ending.reverse name.length name.reverse).reverse

def methodName (path : Path) : String :=
  let name := path.fileName?.getD "method"
  String.ofList (dropEnding ".il".toList (dropEnding ".gz".toList name.toList))

variable {m : Type → Type} [Monad m] [FileSystem m]

def writeInPlace (path : Path) (content : ByteArray) : m (Except TextFault Unit) := do
  let place ←
    match path.parent? with
    | some parent => FileSystem.makeDirectories parent
    | none => pure (.ok ())
  match place with
  | .error fault => return .error (.file fault)
  | .ok () => return (← FileSystem.write path content).mapError .file

variable [Compressor]

def decode (path : Path) (content : ByteArray) : Except TextFault String :=
  if isGzip path then
    match Compressor.unpack content with
    | .error fault => .error (.packed fault)
    | .ok bytes =>
      match Utf8.decode bytes with
      | .error _ => .error .unpackedText
      | .ok text => .ok text
  else (Utf8.decode content).mapError (.plainText path)

def encode (path : Path) (text : String) : ByteArray :=
  if isGzip path then Compressor.pack text.toUTF8 else text.toUTF8

def read (path : Path) : m (Except TextFault String) := do
  match ← FileSystem.read path with
  | .error fault => return .error (.file fault)
  | .ok content => return decode path content

def write (path : Path) (text : String) : m (Except TextFault Unit) :=
  writeInPlace path (encode path text)

end SpawnGuard.ListingFile
