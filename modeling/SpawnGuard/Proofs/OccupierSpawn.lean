import SpawnGuard.Proofs.GuardContract
import SpawnGuard.Proofs.SpawnListing

/-!
What spawning does to an occupier whose method carries the guard: behind an open gate it only
puts the occupier into its cell, behind a closed one it also subscribes the repair handler.
-/
namespace SpawnGuard

theorem Stack.popMany_append (top stack : Stack) :
    popMany top.length (top ++ stack) = .ok (top.reverse, stack) := by
  simp [popMany]

namespace OccupierState

def place (state : OccupierState) : OccupierState :=
  if state.replace then { state with placed := true }.record .elementReplaced
  else state.record .cellDataSet

def subscribeRepair (state : OccupierState) : OccupierState :=
  { state with subscriptions := state.subscriptions ++ [repairEvent] }.record
    (.subscribed repairEvent)

theorem place_of_replace {state : OccupierState} (replaces : state.replace = true) :
    state.place = { state with placed := true }.record .elementReplaced := by
  simp [place, replaces]

theorem place_of_not_replace {state : OccupierState} (keeps : state.replace = false) :
    state.place = state.record .cellDataSet := by
  simp [place, keeps]

@[simp] theorem replace_subscribeRepair (state : OccupierState) :
    state.subscribeRepair.replace = state.replace := rfl

@[simp] theorem callDestroy_subscribeRepair (state : OccupierState) :
    state.subscribeRepair.callDestroy = state.callDestroy := rfl

@[simp] theorem placed_subscribeRepair (state : OccupierState) :
    state.subscribeRepair.placed = state.placed := rfl

@[simp] theorem subscriptions_subscribeRepair (state : OccupierState) :
    state.subscribeRepair.subscriptions = state.subscriptions ++ [repairEvent] := rfl

@[simp] theorem replace_place (state : OccupierState) : state.place.replace = state.replace := by
  unfold place
  split <;> rfl

@[simp] theorem callDestroy_place (state : OccupierState) :
    state.place.callDestroy = state.callDestroy := by
  unfold place
  split <;> rfl

@[simp] theorem placed_place (state : OccupierState) :
    state.place.placed = (state.replace || state.placed) := by
  cases flag : state.replace with
  | false => simp [place_of_not_replace flag, record]
  | true => simp [place_of_replace flag, record]

@[simp] theorem subscriptions_place (state : OccupierState) :
    state.place.subscriptions = state.subscriptions := by
  unfold place
  split <;> rfl

variable (gate : Gate) (stack : Stack) (state : OccupierState)

theorem call_hook :
    call gate defaultHook stack state = (.ok (Value.ofBool gate.active :: stack), state) := by
  simp [call, Gate.hook]

theorem call_method {signature : String} (other : signature ≠ defaultHook) (top : Stack)
    (count : top.length = Signature.parameterCount signature + 1) :
    call gate signature (top ++ stack) state =
      callMethod signature top.reverse stack state := by
  unfold call
  rw [if_neg other, ← count, Stack.popMany_append]

theorem call_replace (self : Value) :
    call gate "Void ReplaceAndDisplaceElement()" (self :: stack) state =
      (.ok stack, { state with placed := true }.record .elementReplaced) := by
  have other : "Void ReplaceAndDisplaceElement()" ≠ defaultHook := by decide
  have count : Signature.parameterCount "Void ReplaceAndDisplaceElement()" = 0 := by
    decide
  exact call_method gate stack state other [self] (congrArg Nat.succ count.symm)

theorem call_setCellData (self : Value) :
    call gate "Void ForceSetGameCellData()" (self :: stack) state =
      (.ok stack, state.record .cellDataSet) := by
  have other : "Void ForceSetGameCellData()" ≠ defaultHook := by decide
  have count : Signature.parameterCount "Void ForceSetGameCellData()" = 0 := by decide
  exact call_method gate stack state other [self] (congrArg Nat.succ count.symm)

theorem call_subscribe (self handler : Value) :
    call gate ("Int32 Subscribe[SimCellOccupier]" ++
        "(Int32, EventSystem.IntraObjectHandler`1[SimCellOccupier])")
        (handler :: .int repairEvent :: self :: stack) state =
      (.ok (.int (Int32.ofNat (state.subscriptions ++ [repairEvent]).length) :: stack),
        state.subscribeRepair) := by
  have other : "Int32 Subscribe[SimCellOccupier]" ++
      "(Int32, EventSystem.IntraObjectHandler`1[SimCellOccupier])" ≠ defaultHook := by
    decide
  have count : Signature.parameterCount ("Int32 Subscribe[SimCellOccupier]" ++
      "(Int32, EventSystem.IntraObjectHandler`1[SimCellOccupier])") = 2 := by
    decide
  exact call_method gate stack state other [handler, .int repairEvent, self]
    (congrArg Nat.succ count.symm)

theorem answers_host : (host gate).Answers defaultHook gate.active := by
  intro stack state
  refine ⟨Value.ofBool gate.active, ?_, call_hook gate stack state⟩
  cases gate.active <;> rfl

theorem popMany_fault {n : Nat} {fault : Fault}
    (refused : stack.popMany n = .error fault) : ∃ own, fault = .host own := by
  unfold Stack.popMany at refused
  split at refused
  · cases refused
    exact ⟨_, rfl⟩
  · cases refused

theorem callMethod_fault {signature : String} {args : List Value} {fault : Fault}
    {after : OccupierState}
    (refused : callMethod signature args stack state = (.error fault, after)) :
    ∃ own, fault = .host own := by
  unfold callMethod at refused
  split at refused
  · unfold subscribe at refused
    split at refused
    · cases refused
    · cases refused
      exact ⟨_, rfl⟩
  · split at refused
    · cases refused
    · split at refused
      · cases refused
      · cases refused
        exact ⟨_, rfl⟩

theorem plain_host : (host gate).Plain := by
  intro fault raised
  cases raised with
  | call method stack state after refused =>
    change call gate method stack state = _ at refused
    unfold call at refused
    split at refused
    · cases refused
    · split at refused
      · rename_i short
        cases refused
        exact popMany_fault stack short
      · exact callMethod_fault _ state refused
  | loadStatic field state after refused => cases refused
  | loadField object field state after refused =>
    change (loadField field state, state) = _ at refused
    unfold loadField at refused
    repeat' split at refused
    all_goals cases refused
    exact ⟨_, rfl⟩
  | storeField object field value state after refused =>
    change storeField field value state = _ at refused
    unfold storeField at refused
    repeat' split at refused
    all_goals cases refused
    exact ⟨_, rfl⟩

end OccupierState

open OccupierState

private theorem ofBody_spawnBody :
    Machine.ofBody spawnBody = ⟨spawnBody.code, [(⟨0⟩, 6), (⟨1⟩, 8)]⟩ := by
  decide

/-- The spawn method comes to its subscription with the occupier in its cell and nothing on the
stack. -/
theorem firstEntry_spawnBody (gate : Gate) (state : OccupierState) :
    ∃ s ≤ 7, (Machine.ofBody spawnBody).FirstEntry (host gate) [.object "SimCellOccupier"] 9 s
      (.entry state) ⟨⟨9, [], state.place⟩, false⟩ := by
  rw [ofBody_spawnBody]
  let self : Value := .object "SimCellOccupier"
  let advance := Machine.advance ⟨spawnBody.code, [(⟨0⟩, 6), (⟨1⟩, 8)]⟩ (host gate) [self]
  have last : ∀ jumped, advance ⟨⟨8, [], state.place⟩, jumped⟩ =
      some ⟨⟨9, [], state.place⟩, false⟩ := fun _ => rfl
  -- One line for each instruction, on either way through the branch on the flag.
  cases flag : state.replace with
  | false =>
    have branch : advance ⟨⟨2, [Value.ofBool state.replace], state⟩, false⟩ =
        some ⟨⟨6, [], state⟩, true⟩ := by
      rw [flag]
      rfl
    have placed : advance ⟨⟨7, [self], state⟩, false⟩ =
        some ⟨⟨8, [], state.place⟩, false⟩ := by
      rw [place_of_not_replace flag]
      exact Machine.advance_of_call rfl (call_setCellData gate [] state self)
    refine ⟨6, by decide, ?_⟩
    apply Machine.firstEntry_succ rfl rfl
    apply Machine.firstEntry_succ rfl rfl
    apply Machine.firstEntry_succ rfl branch
    apply Machine.firstEntry_succ rfl rfl
    apply Machine.firstEntry_succ rfl placed
    apply Machine.firstEntry_succ rfl (last false)
    exact Machine.firstEntry_zero rfl
  | true =>
    have branch : advance ⟨⟨2, [Value.ofBool state.replace], state⟩, false⟩ =
        some ⟨⟨3, [], state⟩, false⟩ := by
      rw [flag]
      rfl
    have placed : advance ⟨⟨4, [self], state⟩, false⟩ =
        some ⟨⟨5, [], state.place⟩, false⟩ := by
      rw [place_of_replace flag]
      exact Machine.advance_of_call rfl (call_replace gate [] state self)
    refine ⟨7, by decide, ?_⟩
    apply Machine.firstEntry_succ rfl rfl
    apply Machine.firstEntry_succ rfl rfl
    apply Machine.firstEntry_succ rfl branch
    apply Machine.firstEntry_succ rfl rfl
    apply Machine.firstEntry_succ rfl placed
    apply Machine.firstEntry_succ rfl rfl
    apply Machine.firstEntry_succ rfl (last true)
    exact Machine.firstEntry_zero rfl

theorem runFrom_subscription (gate : Gate) (state : OccupierState) (taken spare : Nat) :
    (Machine.ofBody spawnBody).runFrom (host gate) [.object "SimCellOccupier"] taken (6 + spare)
      ⟨9, [], state⟩ = (.ok ⟨none, 14, taken + 6⟩, state.subscribeRepair) := by
  rw [ofBody_spawnBody]
  let self : Value := .object "SimCellOccupier"
  let handler : Value :=
    .object "EventSystem.IntraObjectHandler`1[SimCellOccupier] OnBuildingRepairedDelegate"
  let m : Machine := ⟨spawnBody.code, [(⟨0⟩, 6), (⟨1⟩, 8)]⟩
  have called : m.advance (host gate) [self]
      ⟨⟨12, [handler, .int repairEvent, self], state⟩, false⟩ = some _ :=
    Machine.advance_of_call rfl (call_subscribe gate [] state self handler)
  have reached : m.after (host gate) [self] 5 ⟨⟨9, [], state⟩, false⟩ =
      some ⟨⟨14, [], state.subscribeRepair⟩, false⟩ := by
    have loaded : m.after (host gate) [self] 3 ⟨⟨9, [], state⟩, false⟩ =
        some ⟨⟨12, [handler, .int repairEvent, self], state⟩, false⟩ := rfl
    rw [Machine.after_add 3 2, loaded, Option.bind_some, Machine.after_succ called]
    rfl
  have budget : 6 + spare = 5 + (spare + 1) := by omega
  rw [budget, Machine.runFrom_after reached]
  rfl

theorem guarded_spawnBody : Machine.Guarded 9 defaultHook (Machine.ofBody spawnBody)
    (Machine.ofBody (guardedSpawnBody defaultHook)) := by
  have numbered : spawnBody.Numbered := by decide
  exact Machine.guarded_ofBody numbered (by decide) defaultHook 3

theorem run_guarded_of_active {gate : Gate} (opened : gate.active = true)
    (state : OccupierState) :
    ∃ exit, (Machine.ofBody (guardedSpawnBody defaultHook)).run (host gate)
      [.object "SimCellOccupier"] Machine.defaultStepLimit state = (.ok exit, state.place) := by
  have answers : (host gate).Answers defaultHook true := opened ▸ answers_host gate
  obtain ⟨s, bound, first⟩ := firstEntry_spawnBody gate state
  have enough : s + 3 ≤ Machine.defaultStepLimit := by
    unfold Machine.defaultStepLimit
    omega
  obtain ⟨spare, limit⟩ := Nat.exists_eq_add_of_le enough
  have cut := Machine.runFrom_firstEntry _ guarded_spawnBody answers first 0 spare
  rw [Arrival.shift_entry, ← limit] at cut
  exact ⟨_, cut⟩

theorem run_spawnBody (gate : Gate) (state : OccupierState) :
    ∃ exit, (Machine.ofBody spawnBody).run (host gate) [.object "SimCellOccupier"] 13 state =
      (.ok exit, state.place.subscribeRepair) := by
  obtain ⟨s, bound, reached, _⟩ := firstEntry_spawnBody gate state
  obtain ⟨spare, budget⟩ := Nat.exists_eq_add_of_le bound
  have limit : 13 = s + (6 + spare) := by omega
  have run := Machine.runFrom_after reached 0 (6 + spare)
  rw [runFrom_subscription, ← limit] at run
  exact ⟨_, run⟩

theorem run_guarded_of_not_active {gate : Gate} (closed : gate.active = false)
    (state : OccupierState) :
    ∃ exit, (Machine.ofBody (guardedSpawnBody defaultHook)).run (host gate)
      [.object "SimCellOccupier"] Machine.defaultStepLimit state =
        (.ok exit, state.place.subscribeRepair) := by
  have answers : (host gate).Answers defaultHook false := closed ▸ answers_host gate
  -- The method of the game needs thirteen steps at most, so the guard cannot use up the limit.
  obtain ⟨exit, run⟩ := run_spawnBody gate state
  have ended : ((Machine.ofBody spawnBody).runFrom (host gate) [.object "SimCellOccupier"] 0 13
      (Arrival.entry state).config).1 ≠ .error (.stepLimit (0 + 13)) := by
    intro stopped
    have same := congrArg Prod.fst run
    exact absurd (stopped.symm.trans same) (by simp)
  have few := Machine.entries_le (Machine.ofBody spawnBody) (host gate)
    [.object "SimCellOccupier"] 9 13 (.entry state)
  have enough : 13 + 2 * (Machine.ofBody spawnBody).entries (host gate)
      [.object "SimCellOccupier"] 9 13 (.entry state) ≤ Machine.defaultStepLimit := by
    unfold Machine.defaultStepLimit
    omega
  obtain ⟨spare, limit⟩ := Nat.exists_eq_add_of_le enough
  have same := Machine.runFrom_shift_of_false _ guarded_spawnBody (plain_host gate) answers ended
    0 spare
  rw [Arrival.shift_entry, ← limit] at same
  have moved := same.trans (congrArg _ run)
  exact ⟨_, moved⟩

theorem spawn_of_run {gate : Gate} {occupier : CellOccupier} {exit : Exit} {state : OccupierState}
    (run : (Machine.ofBody occupier.body).run (host gate) [.object "SimCellOccupier"]
      Machine.defaultStepLimit occupier.state = (.ok exit, state)) :
    occupier.spawn gate = ⟨occupier.body, state, none⟩ := by
  unfold CellOccupier.spawn
  rw [run]

/-- What a spawn does to an occupier whose method carries the guard. -/
theorem spawn_guarded (gate : Gate) {occupier : CellOccupier}
    (guarded : occupier.body = guardedSpawnBody defaultHook) :
    occupier.spawn gate =
      ⟨occupier.body, if gate.active then occupier.state.place
        else occupier.state.place.subscribeRepair, none⟩ := by
  cases truth : gate.active with
  | true =>
    obtain ⟨exit, run⟩ := run_guarded_of_active truth occupier.state
    rw [← guarded] at run
    exact spawn_of_run run
  | false =>
    obtain ⟨exit, run⟩ := run_guarded_of_not_active truth occupier.state
    rw [← guarded] at run
    exact spawn_of_run run

end SpawnGuard
