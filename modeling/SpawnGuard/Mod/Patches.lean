import SpawnGuard.Mod.Options
import SpawnGuard.Mod.Prefab
import SpawnGuard.Patch.Transpile
import SpawnGuard.Text.Blank
import SpawnGuard.Text.Quoted

/-!
The patches of the mod under given options, with the hook they use.
-/
namespace SpawnGuard

inductive HookError where
  | empty
  | unwritable (hook : String)
  deriving DecidableEq, Repr

namespace HookError

def message : HookError → String
  | empty => "hook must not be empty"
  | unwritable hook =>
    s!"hook {Text.quote hook} may not contain quotes or control characters"

end HookError

structure Patches where
  solarFoundation : Bool
  hook : String
  deriving DecidableEq, Repr

namespace Patches

def ofOptions (options : Options) : Patches := ⟨options.solidFoundation, defaultHook⟩

def entry (options : Options) : Log.Entry := ⟨.info, .patches, s!"loaded {options.text}"⟩

/-- Whether a hook stays what it is when written between quotes in a listing. -/
def checkHook (hook : String) : Except HookError Unit :=
  if hook.toList.all Text.isBlank then .error .empty
  else if hook.toList.any fun c => c = '"' || Text.isControl c then .error (.unwritable hook)
  else .ok ()

def withHook (hook : String) (patches : Patches) : Except HookError Patches :=
  (checkHook hook).map fun _ => { patches with hook }

def active (patches : Patches) : List String :=
  ["SimCellOccupier.OnSpawn (transpiler)",
    "GasPermeableMembraneConfig.ConfigureBuildingTemplate (postfix)"] ++
    if patches.solarFoundation then ["SolarPanelConfig.DoPostConfigureComplete (postfix)"] else []

def configureTemplate (_ : Patches) (prefab : Prefab) : Prefab :=
  if prefab.id = Prefab.membraneId then prefab.configureTemplate else prefab

def completeConfiguration (patches : Patches) (prefab : Prefab) : Prefab :=
  if patches.solarFoundation ∧ prefab.id = Prefab.solarPanelId then prefab.completeConfiguration
  else prefab

def transpile (patches : Patches) (body : Body) : Except Overflow (Body × Outcome) :=
  SpawnGuard.transpile patches.hook body

end Patches

end SpawnGuard
