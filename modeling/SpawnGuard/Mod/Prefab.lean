/-!
Buildings as the mod configures them.
-/
namespace SpawnGuard

/-- A building before it is built: its name, whether its tiles check for liquid, and, if its base
can be made solid, whether the base takes the foundation layer. -/
structure Prefab where
  id : String
  liquidChecker : Bool := false
  foundation : Option Bool := none
  deriving DecidableEq, Repr

namespace Prefab

def membraneId : String := "GasPermeableMembrane"

def solarPanelId : String := "SolarPanel"

def addLiquidChecker (prefab : Prefab) : Prefab := { prefab with liquidChecker := true }

def addBase (prefab : Prefab) : Prefab :=
  { prefab with foundation := some (prefab.foundation.getD false) }

def setBase (value : Bool) (prefab : Prefab) : Prefab :=
  { prefab.addBase with foundation := some value }

def configureTemplate (prefab : Prefab) : Prefab := prefab.addLiquidChecker

def completeConfiguration (prefab : Prefab) : Prefab := prefab.setBase true

end Prefab

end SpawnGuard
