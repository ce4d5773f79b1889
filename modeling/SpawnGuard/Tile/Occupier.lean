import SpawnGuard.Log
import SpawnGuard.Machine.Message
import SpawnGuard.Machine.Run
import SpawnGuard.Machine.Signature
import SpawnGuard.Patch.Transpile
import SpawnGuard.Tile.Gate

/-!
Occupiers of a cell. A tile asks four things of its occupier; the occupier of the game answers
the last of them, to spawn, by running a method body whose calls come back to it.
-/
namespace SpawnGuard

/-- What a tile asks of the occupier of its cell. Spawning may look at the gate. -/
class Occupier (ω : Type) where
  setReplace : Bool → ω → ω
  destroy : ω → ω
  setCallDestroy : Bool → ω → ω
  spawn : Gate → ω → ω
  spawnLog : ω → Log

inductive OccupierEvent where
  | elementReplaced
  | cellDataSet
  | subscribed (event : Int32)
  | destroyed
  deriving DecidableEq, Repr

structure OccupierState where
  replace : Bool
  callDestroy : Bool
  placed : Bool
  subscriptions : List Int32
  events : List OccupierEvent
  deriving DecidableEq, Repr

namespace OccupierState

def fresh : OccupierState := ⟨false, true, false, [], []⟩

def record (state : OccupierState) (event : OccupierEvent) : OccupierState :=
  { state with events := state.events ++ [event] }

def hasDuplicateRepair (state : OccupierState) : Bool := 1 < state.subscriptions.count repairEvent

def subscribe (args : List Value) (stack : Stack) (state : OccupierState) :
    Except Fault Stack × OccupierState :=
  match (args[1]? : Option Value) with
  | some (.int event) =>
    let subscriptions := state.subscriptions ++ [event]
    let state := { state with subscriptions }.record (.subscribed event)
    (.ok (.int (Int32.ofNat subscriptions.length) :: stack), state)
  | given => (.error (.host (.badEventHash given)), state)

def callMethod (signature : String) (args : List Value) (stack : Stack) (state : OccupierState) :
    Except Fault Stack × OccupierState :=
  if "Int32 Subscribe".toList.isPrefixOf signature.toList then subscribe args stack state
  else if signature = "Void ReplaceAndDisplaceElement()" then
    (.ok stack, { state with placed := true }.record .elementReplaced)
  else if signature = "Void ForceSetGameCellData()" then (.ok stack, state.record .cellDataSet)
  else (.error (.host (.unknownMethod signature)), state)

/-- A call: the hook answers what the gate says and takes no argument, all else is a method of
the occupier and takes its receiver first. -/
def call (gate : Gate) (signature : String) (stack : Stack) (state : OccupierState) :
    Except Fault Stack × OccupierState :=
  if signature = defaultHook then (.ok (Value.ofBool gate.hook :: stack), state)
  else
    match stack.popMany (Signature.parameterCount signature + 1) with
    | .error fault => (.error fault, state)
    | .ok (args, stack) => callMethod signature args stack state

def loadField (field : String) (state : OccupierState) : Except Fault Value :=
  if field = "Boolean doReplaceElement" then .ok (Value.ofBool state.replace)
  else if field = "Boolean callDestroy" then .ok (Value.ofBool state.callDestroy)
  else .error (.host (.unknownField field))

def storeField (field : String) (value : Value) (state : OccupierState) :
    Except Fault Unit × OccupierState :=
  if field = "Boolean doReplaceElement" then (.ok (), { state with replace := value.isTrue })
  else if field = "Boolean callDestroy" then (.ok (), { state with callDestroy := value.isTrue })
  else (.error (.host (.unknownField field)), state)

/-- The occupier as host of its own method. A static field holds an object of its name. -/
def host (gate : Gate) : Host OccupierState where
  call := call gate
  loadStatic field state := (.ok (.object field), state)
  loadField _ field state := (loadField field state, state)
  storeField _ field value state := storeField field value state

def destroy (state : OccupierState) : OccupierState :=
  { state with callDestroy := false, placed := false }.record .destroyed

end OccupierState

structure CellOccupier where
  body : Body
  state : OccupierState
  lastFault : Option Fault
  deriving DecidableEq, Repr

namespace CellOccupier

def ofBody (body : Body) : CellOccupier := ⟨body, .fresh, none⟩

def setReplace (replace : Bool) (occupier : CellOccupier) : CellOccupier :=
  { occupier with state := { occupier.state with replace } }

def setCallDestroy (callDestroy : Bool) (occupier : CellOccupier) : CellOccupier :=
  { occupier with state := { occupier.state with callDestroy } }

def destroy (occupier : CellOccupier) : CellOccupier :=
  { occupier with state := occupier.state.destroy }

def cleanUp (occupier : CellOccupier) : CellOccupier :=
  if occupier.state.callDestroy then occupier.destroy else occupier

def clearEvents (occupier : CellOccupier) : CellOccupier :=
  { occupier with state := { occupier.state with events := [] } }

/-- Runs the spawn method on the occupier itself. What the method did stays also if it fails. -/
def spawn (gate : Gate) (occupier : CellOccupier) : CellOccupier :=
  let (result, state) := (Machine.ofBody occupier.body).run (OccupierState.host gate)
    [.object "SimCellOccupier"] Machine.defaultStepLimit occupier.state
  let lastFault :=
    match result with
    | .ok _ => none
    | .error fault => some fault
  { occupier with state, lastFault }

def spawnLog (occupier : CellOccupier) : Log :=
  match occupier.lastFault with
  | none => []
  | some fault => [⟨.warn, .occupier, s!"SimCellOccupier.OnSpawn faulted: {fault.message}"⟩]

instance : Occupier CellOccupier where
  setReplace := setReplace
  destroy := destroy
  setCallDestroy := setCallDestroy
  spawn := spawn
  spawnLog := spawnLog

end CellOccupier

/-- The spawn method of the game: place the element or set the cell's data, then subscribe the
repair handler. -/
def spawnBody : Body where
  name := "SimCellOccupier.OnSpawn"
  code :=
    [⟨.ldarg0, .none, []⟩,
      ⟨.ldfld, .field "Boolean doReplaceElement", []⟩,
      ⟨.brfalseS, .label ⟨0⟩, []⟩,
      ⟨.ldarg0, .none, []⟩,
      ⟨.call, .method "Void ReplaceAndDisplaceElement()", []⟩,
      ⟨.brS, .label ⟨1⟩, []⟩,
      ⟨.ldarg0, .none, [⟨0⟩]⟩,
      ⟨.call, .method "Void ForceSetGameCellData()", []⟩,
      ⟨.nop, .none, [⟨1⟩]⟩,
      ⟨.ldarg0, .none, []⟩,
      ⟨.ldcI4, .int repairEvent, []⟩,
      ⟨.ldsfld, .field
        "EventSystem.IntraObjectHandler`1[SimCellOccupier] OnBuildingRepairedDelegate", []⟩,
      ⟨.call, .method ("Int32 Subscribe[SimCellOccupier]" ++
        "(Int32, EventSystem.IntraObjectHandler`1[SimCellOccupier])"), []⟩,
      ⟨.pop, .none, []⟩,
      ⟨.ret, .none, []⟩]
  nextLabel := 2

end SpawnGuard
