import Mathlib.Tactic.IntervalCases
import SpawnGuard.Proofs.GuardContract
import SpawnGuard.Proofs.GuardedBodies
import SpawnGuard.Proofs.SpawnListing

/-!
A method that is patched again. The tail is found behind the guard it already has, and the next
guard goes in between; but the instruction in front of it is the `ret` of the guard before, and
branches keep their targets, so no run enters the new guard. However many are stacked, the method
runs as with the first one alone.
-/
namespace SpawnGuard

open PatchSite (shift)

variable {σ : Type}

namespace PatchSite

variable {code : Code Label} {site : Nat} {hook : String} {fresh : Label}

/-- A pattern that does not reach across the site matches the same instructions as before. -/
theorem matchesAt_guarded (inside : site ≤ code.length) {pattern : Pattern} {index : Nat}
    (whole : ∀ offset < pattern.length, shift site (index + offset) = shift site index + offset) :
    pattern.matchesAt (guarded code site hook fresh) (shift site index) =
      pattern.matchesAt code index := by
  have bound : shift site index ≤ code.length + 3 ↔ index ≤ code.length := by
    unfold shift
    split <;> omega
  rw [Bool.eq_iff_iff, Pattern.matchesAt_iff, Pattern.matchesAt_iff, length_guarded inside, bound]
  refine and_congr_right fun _ => forall_congr' fun offset => forall_congr' fun test => ?_
  refine imp_congr_right fun tested => ?_
  obtain ⟨short, _⟩ := List.getElem?_eq_some_iff.mp tested
  -- An instruction differs from what it was in its labels at most, and no test looks at these.
  rw [← whole offset short, getElem?_guarded_shift hook fresh inside]
  cases code[index + offset]? with
  | none => simp
  | some ins =>
    rw [Option.map_some]
    split <;> simp [InstructionTest.accepts]

/-- The tail is not found where it would reach into the guard, whatever the hook. -/
theorem not_matchesAt_guarded (inside : site ≤ code.length) {index : Nat}
    (reaches : site ≤ index + 5) (early : index < site + 3) :
    repairTail.matchesAt (guarded code site hook fresh) index = false := by
  rw [Bool.eq_false_iff]
  intro matched
  have call : (guarded code site hook fresh)[site]? = some ⟨.call, .method hook, []⟩ :=
    getElem?_guarded_guard inside 0 (by decide)
  have skip : (guarded code site hook fresh)[site + 1]? = some ⟨.brfalseS, .label fresh, []⟩ :=
    getElem?_guarded_guard inside 1 (by decide)
  have ret : (guarded code site hook fresh)[site + 2]? = some ⟨.ret, .none, []⟩ :=
    getElem?_guarded_guard inside 2 (by decide)
  rcases Nat.lt_or_ge site index with behind | before
  · -- The tail would begin with the branch of the guard or with its `ret`.
    obtain rfl | rfl : index = site + 1 ∨ index = site + 2 := by omega
    · cases Pattern.opcode_of_matchesAt matched 0 rfl skip
    · cases Pattern.opcode_of_matchesAt matched 0 rfl ret
  · obtain ⟨offset, rfl⟩ := Nat.exists_eq_add_of_le before
    have few : offset ≤ 5 := by omega
    interval_cases offset
    -- Only here the call of the guard is where the tail has one, and then its branch is not `pop`.
    case «3» => cases Pattern.opcode_of_matchesAt matched 4 rfl skip
    all_goals cases Pattern.opcode_of_matchesAt matched _ rfl call

/-- Behind a guard the tail is found again, three places further on. -/
theorem find?_guarded (hook : String) (fresh : Label) (found : repairTail.find? code = some site) :
    repairTail.find? (guarded code site hook fresh) = some (site + 3) := by
  obtain ⟨nonempty, inside, matched, first⟩ := Pattern.find?_eq_some.mp found
  refine Pattern.find?_eq_some.mpr ⟨nonempty, ?_, ?_, ?_⟩
  · rw [length_guarded inside.le]
    omega
  · have behind : shift site site = site + 3 := shift_of_le (Nat.le_refl site)
    rw [← behind, matchesAt_guarded inside.le, matched]
    intro offset _
    rw [behind, shift_of_le (Nat.le_add_right site offset), Nat.add_right_comm]
  · intro before early
    rcases Nat.lt_or_ge (before + 5) site with far | near
    · have front : shift site before = before := shift_of_lt (by omega)
      rw [← front, matchesAt_guarded inside.le, first before (by omega)]
      intro offset short
      have six : offset < 6 := short
      rw [front, shift_of_lt (by omega)]
    · exact not_matchesAt_guarded inside.le near early

/-- Where a position stands once so many instructions are put in front of a site. -/
def shiftBy (site more position : Nat) : Nat :=
  if position < site then position else position + more

theorem shiftBy_zero (site : Nat) : shiftBy site 0 = id := by
  funext position
  simp [shiftBy]

theorem shiftBy_shift (site more position : Nat) :
    shiftBy (site + 3) more (shift site position) = shiftBy site (more + 3) position := by
  unfold shift shiftBy
  split <;> split <;> omega

theorem shiftBy_ne {site more position : Nat} (inside : site ≤ position)
    (before : position < site + more) (source : Nat) : shiftBy site more source ≠ position := by
  unfold shiftBy
  split <;> omega

end PatchSite

open PatchSite (shiftBy)

def Fault.move (place : Nat → Nat) : Fault → Fault
  | stackUnderflow index opcode => stackUnderflow (place index) opcode
  | unresolvedLabel index label => unresolvedLabel (place index) label
  | noConstant index => noConstant (place index)
  | noTarget index => noTarget (place index)
  | missingArgument number => missingArgument number
  | fellOffEnd => fellOffEnd
  | stepLimit limit => stepLimit limit
  | host fault => host fault

namespace Machine

/-- The result of a run with its positions moved: the value, the steps and what the run left in
its host stay. -/
def moveResult (place : Nat → Nat) : Except Fault Exit × σ → Except Fault Exit × σ
  | (.ok exit, state) => (.ok { exit with index := place exit.index }, state)
  | (.error fault, state) => (.error (fault.move place), state)

theorem moveResult_id (result : Except Fault Exit × σ) : moveResult id result = result := by
  obtain ⟨fault | exit, state⟩ := result
  · cases fault <;> rfl
  · rfl

theorem moveResult_moveResult (first second : Nat → Nat) (result : Except Fault Exit × σ) :
    moveResult second (moveResult first result) = moveResult (second ∘ first) result := by
  obtain ⟨fault | exit, state⟩ := result
  · cases fault <;> rfl
  · rfl

theorem shiftResult_eq (site : Nat) (result : Except Fault Exit × σ) :
    shiftResult site 0 result = moveResult (shift site) result := by
  obtain ⟨fault | exit, state⟩ := result
  · cases fault <;> rfl
  · rfl

variable {m g : Machine} {host : Host σ} {args : List Value} {site : Nat} {hook : String}

/-- No run comes without a branch to the instruction behind a `ret`. -/
theorem not_enters_behind_ret {ins : Instruction Label} (fetched : m.code[site]? = some ins)
    (returns : ins.opcode = .ret) {s : Nat} {state : σ} {a : Arrival σ}
    (reached : m.after host args s (.entry state) = some a) : a.enters (site + 1) = false := by
  rw [Bool.eq_false_iff]
  intro entered
  obtain ⟨there, straight⟩ := Arrival.enters_iff.mp entered
  cases s with
  | zero =>
    cases reached
    cases there
  | succ s =>
    obtain ⟨b, _, last⟩ := after_snoc reached
    obtain ⟨source, found, executed, jumped⟩ := advance_eq_some last
    have landing := pc_of_execute executed
    rw [← jumped, straight, if_neg Bool.false_ne_true, there] at landing
    cases Nat.succ.inj landing
    cases fetched.symm.trans found
    simp [execute, returns] at executed

/-- If no run enters the site, a run of the guarded code executes only what a run of the code
without the guard does. -/
theorem executes_of_guarded (guarded : Guarded site hook m g) {state : σ}
    (outside : ∀ s, ∀ a ∈ m.after host args s (.entry state), a.enters site = false)
    {limit position : Nat} (executed : g.Executes host args limit position (.entry state)) :
    ∃ source, shift site source = position ∧
      m.Executes host args limit source (.entry state) := by
  obtain ⟨inside, s, bound, b, reached, there⟩ := executed
  have moved := after_shift args guarded s fun t _ => outside t
  rw [Arrival.shift_entry, reached] at moved
  obtain ⟨a, same, rfl⟩ := Option.map_eq_some_iff.mp moved.symm
  rw [Arrival.shift_outside (outside s a same)] at there
  refine ⟨a.config.pc, there, ?_, s, bound, a, same, rfl⟩
  by_contra left
  have gone := guarded.leaves a.config.pc (List.getElem?_eq_none (Nat.not_lt.mp left))
  rw [show shift site a.config.pc = position from there, List.getElem?_eq_none_iff] at gone
  omega

end Machine

theorem transpile_of_find? {body : Body} {site : Nat} (hook : String)
    (found : repairTail.find? body.code = some site) (room : body.nextLabel + 1 < Label.limit) :
    transpile hook body = .ok (body.guarded site hook, .patched site ⟨body.nextLabel⟩) := by
  obtain ⟨_, _, matched, _⟩ := Pattern.find?_eq_some.mp found
  have located : PatchSite.locate? body repairTail = some ⟨site, repairTail⟩ := by
    rw [PatchSite.locate?, found]
    rfl
  have inserted : PatchSite.insertGuard ⟨site, repairTail⟩ hook body =
      .ok (some (⟨body.nextLabel⟩, body.guarded site hook)) :=
    PatchSite.insertGuard_eq_some.mpr ⟨matched, room, rfl, rfl⟩
  simp only [transpile, located, inserted]

theorem transpile_of_find?_eq_none {body : Body} (hook : String)
    (missing : repairTail.find? body.code = none) :
    transpile hook body = .ok (body, .notFound) := by
  have missed : PatchSite.locate? body repairTail = none := by
    rw [PatchSite.locate?, missing]
    rfl
  simp only [transpile, missed]

/-- Patches a body with one hook after the other; the outcomes come in the same order. -/
def transpileAll : List String → Body → Except Overflow (Body × List Outcome)
  | [], body => .ok (body, [])
  | hook :: hooks, body => do
    let (patched, outcome) ← transpile hook body
    let (last, outcomes) ← transpileAll hooks patched
    .ok (last, outcome :: outcomes)

theorem find?_of_patched {hook : String} {body patched : Body} {site : Nat} {label : Label}
    (done : transpile hook body = .ok (patched, .patched site label)) :
    repairTail.find? body.code = some site := by
  obtain ⟨located, found, rfl, _⟩ := transpile_eq_patched done
  obtain ⟨index, first, rfl⟩ := Option.map_eq_some_iff.mp found
  exact first

/-- Further patches of a patched body take their places behind the first one's. -/
theorem transpileAll_cons {hook : String} {hooks : List String} {body patched last : Body}
    {site next : Nat}
    (done : transpile hook body = .ok (patched, .patched site ⟨next⟩))
    (all : transpileAll hooks patched = .ok (last, (List.range hooks.length).map fun k =>
      .patched (site + 3 + 3 * k) ⟨next + 1 + k⟩)) :
    transpileAll (hook :: hooks) body = .ok (last, (List.range (hooks.length + 1)).map fun k =>
      .patched (site + 3 * k) ⟨next + k⟩) := by
  have places (k : Nat) : (.patched (site + 3 + 3 * k) ⟨next + 1 + k⟩ : Outcome) =
      .patched (site + 3 * (k + 1)) ⟨next + (k + 1)⟩ := by
    rw [Nat.mul_succ, Nat.add_comm (3 * k), Nat.add_assoc, Nat.add_assoc, Nat.add_comm 1]
  simp only [places] at all
  rw [transpileAll, done, List.range_succ_eq_map, List.map_cons, List.map_map]
  simp only [bind, Except.bind, all]
  rfl

/-- A body in which the tail stands right behind a `ret`, as a guard leaves it. -/
structure Body.Stacked (body : Body) (site : Nat) : Prop where
  numbered : body.Numbered
  found : repairTail.find? body.code = some site
  behind : ∃ before, site = before + 1 ∧
    ∃ ins, body.code[before]? = some ins ∧ ins.opcode = .ret

/-- The second machine runs as the first with so many instructions in front of a site, none of
which it executes. -/
structure Machine.Spread (site more : Nat) (m g : Machine) : Prop where
  run : ∀ {σ : Type} (host : Host σ), host.Plain → ∀ args limit state,
    g.run host args limit state = moveResult (shiftBy site more) (m.run host args limit state)
  executes : ∀ {σ : Type} (host : Host σ) args limit position state,
    g.Executes host args limit position (.entry state) →
      ∃ source, shiftBy site more source = position ∧
        m.Executes host args limit source (.entry state)

namespace Machine

theorem spread_refl (site : Nat) (m : Machine) : Spread site 0 m m where
  run host _ args limit state := by rw [PatchSite.shiftBy_zero, moveResult_id]
  executes _ _ _ position _ executed := by
    refine ⟨position, ?_, executed⟩
    rw [PatchSite.shiftBy_zero, id]

theorem Spread.trans {site more : Nat} {m g h : Machine} (first : Spread site 3 m g)
    (second : Spread (site + 3) more g h) : Spread site (more + 3) m h where
  run host plain args limit state := by
    have places : shiftBy (site + 3) more ∘ shiftBy site 3 = shiftBy site (more + 3) :=
      funext (PatchSite.shiftBy_shift site more)
    rw [second.run host plain, first.run host plain, moveResult_moveResult, places]
  executes host args limit position state executed := by
    obtain ⟨middle, rfl, between⟩ := second.executes host args limit position state executed
    obtain ⟨source, rfl, origin⟩ := first.executes host args limit middle state between
    exact ⟨source, (PatchSite.shiftBy_shift site more source).symm, origin⟩

end Machine

namespace Body

variable {body : Body} {site : Nat}

theorem stacked_guarded (numbered : body.Numbered) (found : repairTail.find? body.code = some site)
    (hook : String) : (body.guarded site hook).Stacked (site + 3) where
  numbered := numbered.guarded (Pattern.find?_eq_some.mp found).2.1 hook
  found := PatchSite.find?_guarded hook _ found
  behind := by
    have inside := (Pattern.find?_eq_some.mp found).2.1
    exact ⟨site + 2, rfl, _, PatchSite.getElem?_guarded_guard inside.le 2 (by decide), rfl⟩

/-- A guard that is put behind a `ret` is not entered and moves what comes after it. -/
theorem Stacked.spread (stacked : body.Stacked site) (hook : String) :
    Machine.Spread site 3 (.ofBody body) (.ofBody (body.guarded site hook)) := by
  obtain ⟨_, inside, _⟩ := Pattern.find?_eq_some.mp stacked.found
  have guarded := Machine.guarded_ofBody stacked.numbered inside hook (body.nextLabel + 1)
  have outside {σ : Type} (host : Host σ) (args : List Value) (state : σ) (s : Nat) :
      ∀ a ∈ (Machine.ofBody body).after host args s (.entry state), a.enters site = false := by
    obtain ⟨before, rfl, ins, fetched, returns⟩ := stacked.behind
    exact fun a reached => Machine.not_enters_behind_ret fetched returns reached
  constructor
  · intro σ host plain args limit state
    have same := Machine.runFrom_shift args guarded plain 0 limit fun s _ =>
      outside host args state s
    rw [Arrival.shift_entry, Machine.shiftResult_eq] at same
    exact same
  · intro σ host args limit position state executed
    exact Machine.executes_of_guarded guarded (outside host args state) executed

/-- Each further patch puts its guard three places behind the last one, with the next label. -/
theorem Stacked.transpileAll (stacked : body.Stacked site) {hooks : List String}
    (room : body.nextLabel + hooks.length < Label.limit) :
    ∃ last, transpileAll hooks body = .ok (last, (List.range hooks.length).map fun k =>
        .patched (site + 3 * k) ⟨body.nextLabel + k⟩) ∧
      last.code.length = body.code.length + 3 * hooks.length ∧
        Machine.Spread site (3 * hooks.length) (.ofBody body) (.ofBody last) := by
  induction hooks generalizing body site with
  | nil => exact ⟨body, rfl, rfl, Machine.spread_refl site _⟩
  | cons hook hooks ih =>
    rw [List.length_cons] at room
    have patched := transpile_of_find? hook stacked.found (by omega)
    have inside := (Pattern.find?_eq_some.mp stacked.found).2.1
    have next : (body.guarded site hook).nextLabel + hooks.length < Label.limit := by
      change body.nextLabel + 1 + hooks.length < Label.limit
      omega
    obtain ⟨last, done, length, spread⟩ :=
      ih (stacked_guarded stacked.numbered stacked.found hook) next
    refine ⟨last, ?_, ?_, (stacked.spread hook).trans spread⟩
    · exact transpileAll_cons patched done
    · rw [length, guarded, PatchSite.length_guarded inside.le]
      simp
      omega

end Body

variable {body once : Body} {site : Nat} {label : Label}

/-- A method that was patched is patched again by any hook, behind the guard it has, and each time
with a label of its own; but it goes on running as with its first guard, at positions that moved,
and no run executes an instruction of the others. -/
theorem repatched_runs_as_patched_once (numbered : body.Numbered) (first : String)
    (hooks : List String) (room : body.nextLabel + (hooks.length + 1) < Label.limit)
    (done : transpile first body = .ok (once, .patched site label)) :
    ∃ last,
      transpileAll (first :: hooks) body = .ok (last, (List.range (hooks.length + 1)).map fun k =>
        .patched (site + 3 * k) ⟨label.id + k⟩) ∧
      last.code.length = body.code.length + 3 * (hooks.length + 1) ∧
      ∀ (σ : Type) (host : Host σ) (args : List Value) (limit : Nat) (state : σ),
        (host.Plain → (Machine.ofBody last).run host args limit state =
          Machine.moveResult (shiftBy (site + 3) (3 * hooks.length))
            ((Machine.ofBody once).run host args limit state)) ∧
        ∀ position, site + 3 ≤ position → position < site + 3 * (hooks.length + 1) →
          ¬ (Machine.ofBody last).Executes host args limit position (.entry state) := by
  have found := find?_of_patched done
  have patched := transpile_of_find? first found (by omega)
  cases done.symm.trans patched
  have stacked := Body.stacked_guarded numbered found first
  have next : (body.guarded site first).nextLabel + hooks.length < Label.limit := by
    change body.nextLabel + 1 + hooks.length < Label.limit
    omega
  obtain ⟨last, all, length, spread⟩ := stacked.transpileAll next
  refine ⟨last, ?_, ?_, fun σ host args limit state => ⟨fun plain => ?_, ?_⟩⟩
  · exact transpileAll_cons patched all
  · rw [length, Body.guarded, PatchSite.length_guarded (Pattern.find?_eq_some.mp found).2.1.le]
    omega
  · exact spread.run host plain args limit state
  · intro position low high executed
    obtain ⟨source, there, _⟩ := spread.executes host args limit position state executed
    exact PatchSite.shiftBy_ne low (by omega) source there

/-- The spawn method of the game with three guards: a run behind hooks that answer false ends on
its last instruction as with one guard, six places further on. -/
theorem spawnBody_patched_three_times :
    spawnBody.Numbered ∧ spawnBody.nextLabel + 3 < Label.limit ∧
      transpile defaultHook spawnBody = .ok (guardedSpawnBody defaultHook, .patched 9 ⟨2⟩) ∧
      ∃ last,
        transpileAll [defaultHook, "Boolean Open()", defaultHook] spawnBody =
          .ok (last, [.patched 9 ⟨2⟩, .patched 12 ⟨3⟩, .patched 15 ⟨4⟩]) ∧
        last.code.length = 24 ∧
        (Machine.ofBody last).run (Host.always .null) [.object "this"] 14 () =
          (.ok ⟨some .null, 23, 14⟩, ()) ∧
        ¬ (Machine.ofBody last).Executes (Host.always .null) [.object "this"] 14 12 (.entry ()) := by
  have numbered : spawnBody.Numbered := by decide
  have room : spawnBody.nextLabel + 3 < Label.limit := by decide
  have done := transpile_spawnBody defaultHook
  obtain ⟨last, all, length, runs⟩ :=
    repatched_runs_as_patched_once numbered defaultHook ["Boolean Open()", defaultHook] room done
  obtain ⟨same, unseen⟩ := runs Unit (Host.always .null) [.object "this"] 14 ()
  have once : (Machine.ofBody (guardedSpawnBody defaultHook)).run (Host.always .null)
      [.object "this"] 14 () = (.ok ⟨some .null, 17, 14⟩, ()) := by
    decide
  refine ⟨numbered, room, done, last, all, length, ?_, unseen 12 (by decide) (by decide)⟩
  rw [same (Host.plain_always .null), once]
  rfl

end SpawnGuard
