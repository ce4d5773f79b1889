import SpawnGuard.Proofs.HostMoves
import SpawnGuard.Tile.Occupier

/-!
The log of an occupier. Whatever its spawn method is and wherever a run of it stops, the events
tell which subscriptions were made and whether the element is in its cell; they grow at the end,
and a run never adds a destruction.
-/
namespace SpawnGuard

namespace OccupierEvent

def subscription? : OccupierEvent → Option Int32
  | subscribed event => some event
  | elementReplaced | cellDataSet | destroyed => none

/-- Whether an event puts the element into its cell or takes it out. -/
def movesElement : OccupierEvent → Bool
  | elementReplaced | destroyed => true
  | cellDataSet | subscribed _ => false

end OccupierEvent

namespace OccupierState

/-- The events say what was subscribed, and the last one that moves the element says whether it is
in its cell. -/
structure Faithful (state : OccupierState) : Prop where
  subscriptions : state.subscriptions = state.events.filterMap OccupierEvent.subscription?
  placed : state.placed = true ↔
    (state.events.filter OccupierEvent.movesElement).getLast? = some .elementReplaced

/-- Events were added at the end of the log, and their subscriptions to those made before. -/
structure Adds (before : OccupierState) (added : List OccupierEvent) (after : OccupierState) :
    Prop where
  events : after.events = before.events ++ added
  subscriptions : after.subscriptions =
    before.subscriptions ++ added.filterMap OccupierEvent.subscription?

/-- What a run does to the log: it destroys nothing, and the element is in its cell afterwards if it
was before or was put there. -/
def Logs (before after : OccupierState) : Prop :=
  ∃ added, before.Adds added after ∧ .destroyed ∉ added ∧
    after.placed = (before.placed || decide (.elementReplaced ∈ added))

variable {before middle after state : OccupierState} {added later : List OccupierEvent}

theorem adds_nil (events : after.events = before.events)
    (subscriptions : after.subscriptions = before.subscriptions) : before.Adds [] after where
  events := by rw [events, List.append_nil]
  subscriptions := by rw [subscriptions, List.filterMap_nil, List.append_nil]

theorem Adds.trans (first : before.Adds added middle) (second : middle.Adds later after) :
    before.Adds (added ++ later) after where
  events := by rw [second.events, first.events, List.append_assoc]
  subscriptions := by
    rw [second.subscriptions, first.subscriptions, List.filterMap_append, List.append_assoc]

theorem Logs.of_same (events : after.events = before.events)
    (subscriptions : after.subscriptions = before.subscriptions)
    (placed : after.placed = before.placed) : before.Logs after :=
  ⟨[], adds_nil events subscriptions, List.not_mem_nil, by simp [placed]⟩

theorem Logs.refl (state : OccupierState) : state.Logs state := .of_same rfl rfl rfl

theorem Logs.trans (first : before.Logs middle) (second : middle.Logs after) :
    before.Logs after := by
  obtain ⟨added, adds, kept, placed⟩ := first
  obtain ⟨later, more, keeps, places⟩ := second
  refine ⟨added ++ later, adds.trans more, ?_, ?_⟩
  · simp [kept, keeps]
  · rw [places, placed, Bool.or_assoc]
    simp [Bool.decide_or]

theorem logs_callMethod (signature : String) (args : List Value) (stack : Stack)
    (state : OccupierState) : state.Logs (callMethod signature args stack state).2 := by
  unfold callMethod
  split
  · unfold subscribe
    split
    · rename_i event _
      exact ⟨[.subscribed event], ⟨rfl, rfl⟩, by simp, by simp [record]⟩
    · exact .refl state
  · split
    · exact ⟨[.elementReplaced], ⟨rfl, by simp [record, OccupierEvent.subscription?]⟩, by simp,
        by simp [record]⟩
    · split
      · exact ⟨[.cellDataSet], ⟨rfl, by simp [record, OccupierEvent.subscription?]⟩, by simp,
          by simp [record]⟩
      · exact .refl state

theorem moves_host (gate : Gate) : (host gate).Moves Logs where
  call signature stack state := by
    change state.Logs (call gate signature stack state).2
    unfold call
    split
    · exact .refl state
    · split
      · exact .refl state
      · exact logs_callMethod signature _ _ state
  loadStatic _ state := .refl state
  loadField _ _ state := .refl state
  storeField _ field value state := by
    change state.Logs (storeField field value state).2
    unfold storeField
    split
    · exact .of_same rfl rfl rfl
    · split
      · exact .of_same rfl rfl rfl
      · exact .refl state

theorem faithful_fresh : fresh.Faithful := ⟨rfl, by simp [fresh]⟩

/-- Of events that destroy nothing, the last one that moves the element puts it into its cell. -/
theorem getLast?_movesElement (kept : .destroyed ∉ added) :
    (added.filter OccupierEvent.movesElement).getLast? =
      if .elementReplaced ∈ added then some .elementReplaced else none := by
  have only : ∀ event ∈ added.filter OccupierEvent.movesElement, event = .elementReplaced := by
    intro event member
    obtain ⟨inside, moves⟩ := List.mem_filter.mp member
    cases event with
    | elementReplaced => rfl
    | destroyed => exact absurd inside kept
    | cellDataSet | subscribed => cases moves
  split
  · rename_i put
    have kept : OccupierEvent.elementReplaced ∈ added.filter OccupierEvent.movesElement :=
      List.mem_filter.mpr ⟨put, rfl⟩
    have last := List.getLast?_eq_some_getLast (List.ne_nil_of_mem kept)
    rw [last, only _ (List.getLast_mem _)]
  · rename_i absent
    rw [List.getLast?_eq_none_iff, List.filter_eq_nil_iff]
    intro event member moves
    exact absent (only event (List.mem_filter.mpr ⟨member, moves⟩) ▸ member)

theorem Faithful.logs (faithful : before.Faithful) (logs : before.Logs after) :
    after.Faithful := by
  obtain ⟨added, adds, kept, placed⟩ := logs
  constructor
  · rw [adds.subscriptions, adds.events, List.filterMap_append, faithful.subscriptions]
  · rw [placed, adds.events, List.filter_append, List.getLast?_append, getLast?_movesElement kept,
      Bool.or_eq_true, faithful.placed, decide_eq_true_eq]
    split
    · rename_i put
      simp [put]
    · rename_i other
      simp [other]

theorem adds_destroy (state : OccupierState) : state.Adds [.destroyed] state.destroy where
  events := rfl
  subscriptions := (List.append_nil _).symm

theorem Faithful.destroy (faithful : state.Faithful) : state.destroy.Faithful where
  subscriptions := by
    rw [(adds_destroy state).subscriptions, (adds_destroy state).events, List.filterMap_append,
      faithful.subscriptions]
  placed := by
    rw [(adds_destroy state).events, List.filter_append]
    simp [OccupierState.destroy, record, OccupierEvent.movesElement]

end OccupierState

/-- What the game does to an occupier, or to the gate its hook looks at. -/
inductive OccupierOperation where
  | spawn
  | destroy
  | setReplace (replace : Bool)
  | setCallDestroy (callDestroy : Bool)
  | cleanUp
  | gate (change : Gate → Gate)

/-- An occupier and the gate of its thread. -/
structure HostedOccupier where
  gate : Gate
  occupier : CellOccupier

namespace HostedOccupier

def ofBody (body : Body) (gate : Gate) : HostedOccupier := ⟨gate, .ofBody body⟩

def apply (hosted : HostedOccupier) : OccupierOperation → HostedOccupier
  | .spawn => { hosted with occupier := hosted.occupier.spawn hosted.gate }
  | .destroy => { hosted with occupier := hosted.occupier.destroy }
  | .setReplace replace => { hosted with occupier := hosted.occupier.setReplace replace }
  | .setCallDestroy callDestroy =>
    { hosted with occupier := hosted.occupier.setCallDestroy callDestroy }
  | .cleanUp => { hosted with occupier := hosted.occupier.cleanUp }
  | .gate change => { hosted with gate := change hosted.gate }

def applyAll (hosted : HostedOccupier) (operations : List OccupierOperation) : HostedOccupier :=
  operations.foldl apply hosted

/-- Whether an operation destroys what the occupier placed. -/
def destroys (hosted : HostedOccupier) : OccupierOperation → Bool
  | .destroy => true
  | .cleanUp => hosted.occupier.state.callDestroy
  | .spawn | .setReplace _ | .setCallDestroy _ | .gate _ => false

/-- The run of the spawn method with which the occupier would spawn. -/
def spawnRun (hosted : HostedOccupier) : Except Fault Exit × OccupierState :=
  (Machine.ofBody hosted.occupier.body).run (OccupierState.host hosted.gate)
    [.object "SimCellOccupier"] Machine.defaultStepLimit hosted.occupier.state

variable {hosted : HostedOccupier} {operation : OccupierOperation}

theorem state_spawn (hosted : HostedOccupier) :
    (hosted.apply .spawn).occupier.state = hosted.spawnRun.2 := rfl

theorem lastFault_spawn (hosted : HostedOccupier) (fault : Fault) :
    (hosted.apply .spawn).occupier.lastFault = some fault ↔ hosted.spawnRun.1 = .error fault := by
  change (hosted.occupier.spawn hosted.gate).lastFault = some fault ↔ _
  unfold CellOccupier.spawn spawnRun
  rcases (Machine.ofBody hosted.occupier.body).run _ _ _ _ with ⟨refused | exit, last⟩ <;> simp

theorem logs_spawn (hosted : HostedOccupier) :
    hosted.occupier.state.Logs (hosted.apply .spawn).occupier.state := by
  rw [state_spawn]
  exact Machine.moved_runFrom (OccupierState.moves_host hosted.gate) .refl .trans 0
    Machine.defaultStepLimit ⟨0, [], hosted.occupier.state⟩

theorem cleanUp_of_pending (pending : hosted.occupier.state.callDestroy = true) :
    hosted.apply .cleanUp = hosted.apply .destroy := by
  simp [apply, CellOccupier.cleanUp, pending]

theorem cleanUp_of_settled (settled : hosted.occupier.state.callDestroy = false) :
    hosted.apply .cleanUp = hosted := by
  simp [apply, CellOccupier.cleanUp, settled]

/-- An operation adds events at the end of the log, a destruction only if it destroys. -/
theorem adds_apply (hosted : HostedOccupier) (operation : OccupierOperation) :
    ∃ added, hosted.occupier.state.Adds added (hosted.apply operation).occupier.state ∧
      added.count .destroyed = if hosted.destroys operation then 1 else 0 := by
  cases operation with
  | spawn =>
    obtain ⟨added, adds, kept, _⟩ := hosted.logs_spawn
    exact ⟨added, adds, List.count_eq_zero.mpr kept⟩
  | destroy => exact ⟨[.destroyed], OccupierState.adds_destroy _, rfl⟩
  | setReplace | setCallDestroy | gate => exact ⟨[], OccupierState.adds_nil rfl rfl, rfl⟩
  | cleanUp =>
    cases pending : hosted.occupier.state.callDestroy with
    | true =>
      rw [cleanUp_of_pending pending]
      exact ⟨[.destroyed], OccupierState.adds_destroy _, by simp [destroys, pending]⟩
    | false =>
      rw [cleanUp_of_settled pending]
      exact ⟨[], OccupierState.adds_nil rfl rfl, by simp [destroys, pending]⟩

theorem faithful_apply (faithful : hosted.occupier.state.Faithful)
    (operation : OccupierOperation) : (hosted.apply operation).occupier.state.Faithful := by
  cases operation with
  | spawn => exact faithful.logs hosted.logs_spawn
  | destroy => exact faithful.destroy
  | setReplace | setCallDestroy | gate => exact ⟨faithful.subscriptions, faithful.placed⟩
  | cleanUp =>
    cases pending : hosted.occupier.state.callDestroy with
    | true =>
      rw [cleanUp_of_pending pending]
      exact faithful.destroy
    | false =>
      rw [cleanUp_of_settled pending]
      exact faithful

theorem faithful_applyAll (faithful : hosted.occupier.state.Faithful)
    (operations : List OccupierOperation) : (hosted.applyAll operations).occupier.state.Faithful :=
  List.foldlRecOn (motive := fun hosted => hosted.occupier.state.Faithful) operations apply
    faithful fun _ faithful operation _ => faithful_apply faithful operation

theorem adds_applyAll (hosted : HostedOccupier) (operations : List OccupierOperation) :
    ∃ added, hosted.occupier.state.Adds added (hosted.applyAll operations).occupier.state := by
  induction operations generalizing hosted with
  | nil => exact ⟨[], OccupierState.adds_nil rfl rfl⟩
  | cons operation rest ih =>
    obtain ⟨added, first, _⟩ := hosted.adds_apply operation
    obtain ⟨later, others⟩ := ih (hosted.apply operation)
    exact ⟨added ++ later, first.trans others⟩

theorem body_apply (hosted : HostedOccupier) (operation : OccupierOperation) :
    (hosted.apply operation).occupier.body = hosted.occupier.body := by
  cases operation with
  | cleanUp =>
    change (CellOccupier.cleanUp _).body = _
    unfold CellOccupier.cleanUp
    split <;> rfl
  | _ => rfl

theorem body_applyAll (hosted : HostedOccupier) (operations : List OccupierOperation) :
    (hosted.applyAll operations).occupier.body = hosted.occupier.body :=
  List.foldlRecOn (motive := fun last => last.occupier.body = hosted.occupier.body) operations
    apply rfl fun last same operation _ => (last.body_apply operation).trans same

theorem lastFault_apply (other : operation ≠ .spawn) :
    (hosted.apply operation).occupier.lastFault = hosted.occupier.lastFault := by
  cases operation with
  | spawn => exact absurd rfl other
  | cleanUp =>
    change (CellOccupier.cleanUp _).lastFault = _
    unfold CellOccupier.cleanUp
    split <;> rfl
  | _ => rfl

theorem lastFault_applyAll {operations : List OccupierOperation} (others : .spawn ∉ operations) :
    (hosted.applyAll operations).occupier.lastFault = hosted.occupier.lastFault :=
  List.foldlRecOn (motive := fun last => last.occupier.lastFault = hosted.occupier.lastFault)
    operations apply rfl fun _ same _ member =>
      (lastFault_apply fun spawns => others (spawns ▸ member)).trans same

theorem applyAll_spawn (hosted : HostedOccupier) (earlier later : List OccupierOperation) :
    hosted.applyAll (earlier ++ .spawn :: later) =
      ((hosted.applyAll earlier).apply .spawn).applyAll later := by
  unfold applyAll
  rw [List.foldl_append, List.foldl_cons]

end HostedOccupier

/-- Whatever the spawn method is and whatever is done to an occupier and its gate, the log tells
what was subscribed and whether the element is in its cell. Every operation adds events at the end,
with one destruction if it is a destruction or a clean-up that still has to destroy and with none
otherwise. The last fault is that of the last run of the spawn method. -/
theorem event_log_faithful (body : Body) (gate : Gate) (operations : List OccupierOperation) :
    let hosted := (HostedOccupier.ofBody body gate).applyAll operations
    hosted.occupier.state.Faithful ∧
    (∀ operation, ∃ added,
      hosted.occupier.state.Adds added (hosted.apply operation).occupier.state ∧
        added.count .destroyed = if hosted.destroys operation then 1 else 0) ∧
    (∀ later, ∃ added,
      hosted.occupier.state.Adds added (hosted.applyAll later).occupier.state) ∧
    (.spawn ∉ operations → hosted.occupier.lastFault = none) ∧
    ∀ earlier later, operations = earlier ++ .spawn :: later → .spawn ∉ later →
      let spawning := (HostedOccupier.ofBody body gate).applyAll earlier
      ∀ fault, hosted.occupier.lastFault = some fault ↔
        ((Machine.ofBody body).run (OccupierState.host spawning.gate)
          [.object "SimCellOccupier"] Machine.defaultStepLimit spawning.occupier.state).1 =
            .error fault := by
  intro hosted
  refine ⟨?_, hosted.adds_apply, hosted.adds_applyAll, ?_, ?_⟩
  · exact HostedOccupier.faithful_applyAll OccupierState.faithful_fresh operations
  · exact HostedOccupier.lastFault_applyAll
  · rintro earlier later rfl others spawning fault
    have last : hosted = (spawning.apply .spawn).applyAll later :=
      HostedOccupier.applyAll_spawn _ earlier later
    have same : spawning.occupier.body = body := HostedOccupier.body_applyAll _ earlier
    rw [last, HostedOccupier.lastFault_applyAll others, HostedOccupier.lastFault_spawn,
      HostedOccupier.spawnRun, same]

/-- A spawn method that places the element, subscribes and then takes too much off the stack. -/
def hastyBody : Body where
  name := "hasty"
  code :=
    [⟨.ldarg0, .none, []⟩, ⟨.call, .method "Void ReplaceAndDisplaceElement()", []⟩,
      ⟨.ldarg0, .none, []⟩, ⟨.ldcI4, .int 5, []⟩, ⟨.ldnull, .none, []⟩,
      ⟨.call, .method "Int32 Subscribe(Int32, X)", []⟩, ⟨.pop, .none, []⟩, ⟨.pop, .none, []⟩]
  nextLabel := 0

/-- The method is run twice, once behind an open gate, and what it placed is cleaned up in between:
the second clean-up finds nothing to destroy. -/
theorem hasty_log_faithful :
    let earlier : List OccupierOperation :=
      [.spawn, .gate Gate.openGuard, .cleanUp, .cleanUp, .setCallDestroy true]
    let later : List OccupierOperation := [.setReplace true, .gate Gate.dropGuard]
    let hosted := (HostedOccupier.ofBody hastyBody .closed).applyAll (earlier ++ .spawn :: later)
    .spawn ∉ later ∧
      hosted.occupier.state.events =
        [.elementReplaced, .subscribed 5, .destroyed, .elementReplaced, .subscribed 5] ∧
      hosted.occupier.state.subscriptions = [5, 5] ∧ hosted.occupier.state.placed = true ∧
      hosted.occupier.lastFault = some (.stackUnderflow 7 .pop) := by
  intro earlier later hosted
  have others : .spawn ∉ later := by simp [later]
  obtain ⟨faithful, _, _, _, last⟩ :=
    event_log_faithful hastyBody .closed (earlier ++ .spawn :: later)
  have events : hosted.occupier.state.events =
      [.elementReplaced, .subscribed 5, .destroyed, .elementReplaced, .subscribed 5] := by
    decide
  refine ⟨others, events, ?_, ?_, ?_⟩
  · rw [faithful.subscriptions, events]
    rfl
  · rw [faithful.placed, events]
    rfl
  · rw [last earlier later rfl others]
    decide

end SpawnGuard
