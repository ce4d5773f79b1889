import SpawnGuard.Batch.ListingFile

/-!
The options file: where it is, and how options are loaded from it and saved to it. Options that
cannot be loaded are the default ones.
-/
namespace SpawnGuard

structure Home where
  directory? : Option Path
  /-- The directory for settings, if one is named; a relative one does not count. -/
  config? : Option Path
  deriving DecidableEq, Repr

namespace OptionsFile

def configDirectory? (home : Home) : Option Path :=
  match home.config?.filter Path.isAbsolute with
  | some directory => some directory
  | none => home.directory?.map fun directory => directory.join ⟨".config"⟩

def path? (home : Home) : Option Path :=
  (configDirectory? home).map fun directory =>
    (directory.join ⟨"ShowLiquidOnAirflowTiles"⟩).join ⟨"config.json"⟩

def ofContent (path : Path) (content : Except FileFault ByteArray) : Options × Log :=
  let unread (reason : String) : Options × Log :=
    (({} : Options), [⟨.debug, .options, s!"no options at {path.text}: {reason}"⟩])
  match content with
  | .error fault => unread fault.message
  | .ok bytes =>
    match String.fromUTF8? bytes with
    | none => unread TextFault.notUtf8
    | some text =>
      match Options.read? text with
      | some options => (options, [])
      | none =>
        (({} : Options), [⟨.warn, .options, s!"ignoring malformed options at {path.text}"⟩])

variable {m : Type → Type} [Monad m] [FileSystem m]

def load (path : Path) : m (Options × Log) := do
  return ofContent path (← FileSystem.read path)

def loadUsual (home : Home) : m (Options × Log) :=
  match path? home with
  | some path => load path
  | none => pure ({}, [])

def save (options : Options) (path : Path) : m (Except TextFault Unit) :=
  ListingFile.writeInPlace path options.print.toUTF8

end OptionsFile

end SpawnGuard
