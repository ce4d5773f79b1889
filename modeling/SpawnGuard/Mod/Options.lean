import SpawnGuard.Mod.Json

/-!
The options of the mod, and their file: a JSON object with one flag, which is set where the
object does not mention it.
-/
namespace SpawnGuard

structure Options where
  solidFoundation : Bool := true
  deriving DecidableEq, Repr

namespace Options

def flagKey : String := "SolidSolarPanelsFoundation"

def text (options : Options) : String :=
  s!"ShowLiquidOnAirflowTiles.Options[solidsolarpanelsfoundation={options.solidFoundation}]"

def print (options : Options) : String :=
  "\x7b\n  \"" ++ flagKey ++ "\": " ++ toString options.solidFoundation ++ "\n\x7d"

/-- The flag of an object, from the rest of its members; `found` is the flag if met before. A
flag given twice makes the object malformed, other members only have to be well formed. -/
def readMembers (fuel : Nat) (found : Option Bool) (text : List Char) :
    Option (Option Bool × List Char) :=
  match fuel with
  | 0 => none
  | fuel + 1 => do
    let (key, rest) ← Json.readString (Json.skipBlanks text)
    let rest ← Json.expect ':' rest
    let (found, rest) ←
      if key = flagKey.toList then
        if found.isSome then none
        else do
          let (flag, rest) ← Json.readBool rest
          some (some flag, rest)
      else do
        let rest ← Json.skipValue rest
        some (found, rest)
    match Json.skipBlanks rest with
    | ',' :: rest => readMembers fuel found rest
    | '\x7d' :: rest => some (found, rest)
    | _ => none

def readObject (text : List Char) : Option (Option Bool × List Char) :=
  match Json.skipBlanks text with
  | '\x7d' :: rest => some (none, rest)
  | rest => readMembers rest.length none rest

def readArray (text : List Char) : Option (Option Bool × List Char) :=
  match Json.skipBlanks text with
  | ']' :: rest => some (none, rest)
  | rest => do
    let (flag, rest) ← Json.readBool rest
    let rest ← Json.expect ']' rest
    some (some flag, rest)

def read? (text : String) : Option Options := do
  let (flag, rest) ←
    match Json.skipBlanks text.toList with
    | '\x7b' :: rest => readObject rest
    | '[' :: rest => readArray rest
    | _ => none
  if (Json.skipBlanks rest).isEmpty then some ⟨flag.getD true⟩ else none

end Options

end SpawnGuard
