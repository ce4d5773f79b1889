import SpawnGuard.Files.System
import SpawnGuard.Files.Utf8
import SpawnGuard.Listing.Error
import SpawnGuard.Mod.Patches

/-!
What can stop the patching of files.
-/
namespace SpawnGuard

inductive TextFault where
  | file (fault : FileFault)
  | packed (fault : String)
  | unpackedText
  | plainText (path : Path) (fault : Utf8Fault)
  deriving DecidableEq, Repr

namespace TextFault

def notUtf8 : String := "stream did not contain valid UTF-8"

def message : TextFault → String
  | file fault => fault.message
  | packed fault => fault
  | unpackedText => notUtf8
  | plainText path fault => s!"{path.text} is not valid UTF-8: {fault.message}"

end TextFault

inductive ConfigFault where
  | hook (error : HookError)
  | missingInput (path : Path)
  | badInput (path : Path)
  | noListings (path : Path)
  deriving DecidableEq, Repr

namespace ConfigFault

def message : ConfigFault → String
  | hook error => error.message
  | missingInput path => s!"input {path.text} does not exist"
  | badInput path => s!"bad input path {path.text}"
  | noListings path => s!"no .il listings under {path.text}"

end ConfigFault

inductive BatchError where
  | text (fault : TextFault)
  | walk (fault : String)
  | listing (path : Path) (error : Listing.Error)
  | labels (overflow : Overflow)
  | config (fault : ConfigFault)
  deriving DecidableEq, Repr

namespace BatchError

def message : BatchError → String
  | text fault => s!"IO error: {fault.message}"
  | walk fault => s!"directory walk failed: {fault}"
  | listing path error => s!"{path.text}: {error.message}"
  | labels overflow => overflow.message
  | config fault => s!"configuration error: {fault.message}"

end BatchError

end SpawnGuard
