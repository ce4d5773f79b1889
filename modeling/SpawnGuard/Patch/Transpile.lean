import SpawnGuard.Log
import SpawnGuard.Patch.Site

/-!
The patch of a spawn method: `if (hook()) return;` in front of the subscription to repairs that
ends the method. A method without that ending comes back as it was.
-/
namespace SpawnGuard

def repairEvent : Int32 := -1699355994

def defaultHook : String := "Boolean AirflowTileLiquidChecker::OnSpawnHook()"

def repairTail : Pattern :=
  Pattern.subscribeTail repairEvent "OnBuildingRepairedDelegate" "Int32 Subscribe"

inductive Outcome where
  | patched (site : Nat) (label : Label)
  | notFound
  deriving DecidableEq, Repr

namespace Outcome

def isPatched : Outcome → Bool
  | patched _ _ => true
  | notFound => false

def describe : Outcome → String
  | patched site _ => s!"patched at {site}"
  | notFound => "pattern not found (left unmodified)"

def entry (name : String) : Outcome → Log.Entry
  | patched site label =>
    ⟨.info, .transpiler, s!"patched {name} at instruction {site} (guard label {label.text})"⟩
  | notFound =>
    ⟨.warn, .transpiler, "ShowLiquidOnAirflowTiles: Failed to patch SimCellOccupier.OnSpawn()"⟩

end Outcome

def transpile (hook : String) (body : Body) : Except Overflow (Body × Outcome) :=
  match PatchSite.locate? body repairTail with
  | none => .ok (body, .notFound)
  | some site =>
    match site.insertGuard hook body with
    | .error overflow => .error overflow
    | .ok none => .ok (body, .notFound)
    | .ok (some (label, patched)) => .ok (patched, .patched site.index label)

end SpawnGuard
