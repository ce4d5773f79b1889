/-!
The gate a spawn hook looks at. Whoever opens it gets a guard, and the gate closes when a guard is
dropped. Every thread has a gate of its own, closed at first.
-/
namespace SpawnGuard

structure Gate where
  active : Bool
  guards : Nat
  deriving DecidableEq, Repr

namespace Gate

def closed : Gate := ⟨false, 0⟩

def setActive (gate : Gate) : Gate := { gate with active := true }

def clearActive (gate : Gate) : Gate := { gate with active := false }

def openGuard (gate : Gate) : Gate := ⟨true, gate.guards + 1⟩

/-- Drops the newest guard, if there is one. -/
def dropGuard (gate : Gate) : Gate :=
  if gate.guards = 0 then gate else ⟨false, gate.guards - 1⟩

def seenElsewhere (_ : Gate) : Bool := closed.active

def hook (gate : Gate) : Bool := gate.active

end Gate

end SpawnGuard
