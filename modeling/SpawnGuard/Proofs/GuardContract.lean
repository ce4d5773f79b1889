import SpawnGuard.Proofs.GuardedRun
import SpawnGuard.Proofs.Sites

/-!
What a guard does to a method, told from the method alone. With a hook that answers false nothing
changes but the positions and the number of steps; with one that answers true the method is cut
where control first comes to the site without a branch.
-/
namespace SpawnGuard

open Machine (shiftResult)

variable {body : Body} {pattern : Pattern} {site : PatchSite}

theorem insertGuard_guarded (numbered : body.Numbered)
    (room : body.nextLabel + 1 < Label.limit)
    (found : PatchSite.locate? body pattern = some site) (hook : String) :
    ∃ label patched, site.insertGuard hook body = .ok (some (label, patched)) ∧
      Machine.Guarded site.index hook (Machine.ofBody body) (Machine.ofBody patched) := by
  obtain ⟨same, inside, matched⟩ := PatchSite.locate?_eq_some found
  refine ⟨_, _, PatchSite.insertGuard_eq_some.mpr ⟨same ▸ matched, room, rfl, rfl⟩, ?_⟩
  exact Machine.guarded_ofBody numbered inside hook _

/-- With a hook that answers false, a run that ends within its limit ends the same way behind a
guard: the same value or fault at shifted positions and the same host, two steps later for each
time control came to the site as the entry of the method or from the instruction before. -/
theorem guard_transparent_of_false (numbered : body.Numbered)
    (room : body.nextLabel + 1 < Label.limit)
    (found : PatchSite.locate? body pattern = some site) (hook : String) :
    ∃ label patched, site.insertGuard hook body = .ok (some (label, patched)) ∧
      ∀ (σ : Type) (host : Host σ), host.Plain → host.Answers hook false →
        ∀ (args : List Value) (limit : Nat) (state : σ),
          let m := Machine.ofBody body
          let entries := m.entries host args site.index limit (.entry state)
          (m.run host args limit state).1 ≠ .error (.stepLimit limit) →
            ∀ larger, limit + 2 * entries ≤ larger →
              (Machine.ofBody patched).run host args larger state =
                shiftResult site.index (2 * entries) (m.run host args limit state) := by
  obtain ⟨label, patched, inserted, guarded⟩ := insertGuard_guarded numbered room found hook
  refine ⟨label, patched, inserted, ?_⟩
  intro σ host plain answers args limit state m entries ended larger enough
  obtain ⟨spare, rfl⟩ := Nat.exists_eq_add_of_le enough
  have ended' : (m.runFrom host args 0 limit (Arrival.entry state).config).1 ≠
      .error (.stepLimit (0 + limit)) := by
    rw [Nat.zero_add]
    exact ended
  have same := Machine.runFrom_shift_of_false args guarded plain answers ended' 0 spare
  rw [Arrival.shift_entry, Nat.zero_add, Nat.zero_add] at same
  exact same

/-- A loop that reaches its `dup` twice, first by a branch and then from the `nop` before it. -/
def loopBody : Body where
  name := "loop"
  code :=
    [⟨.ldcI40, .none, []⟩, ⟨.ldcI41, .none, []⟩, ⟨.br, .label ⟨0⟩, []⟩, ⟨.nop, .none, [⟨1⟩]⟩,
      ⟨.dup, .none, [⟨0⟩]⟩, ⟨.pop, .none, []⟩, ⟨.brtrue, .label ⟨1⟩, []⟩, ⟨.ret, .none, []⟩]
  nextLabel := 2

def Host.always (answer : Value) : Host Unit where
  call _ stack state := (.ok (answer :: stack), state)
  loadStatic _ state := (.ok answer, state)
  loadField _ _ state := (.ok answer, state)
  storeField _ _ _ state := (.ok (), state)

theorem Host.not_raises_always (answer : Value) (fault : Fault) :
    ¬ (Host.always answer).Raises fault := by
  intro raised
  cases raised with
  | call method stack state state' refused => cases refused
  | loadStatic field state state' refused => cases refused
  | loadField object field state state' refused => cases refused
  | storeField object field value state state' refused => cases refused

theorem Host.plain_always (answer : Value) : (Host.always answer).Plain :=
  fun fault raised => absurd raised (Host.not_raises_always answer fault)

theorem Host.answers_always (answer : Value) (method : String) :
    (Host.always answer).Answers method answer.isTrue :=
  fun _ _ => ⟨answer, rfl, rfl⟩

/-- The guard is met once, so the eleven steps of the loop become thirteen. -/
theorem loop_guard_transparent :
    loopBody.Numbered ∧ loopBody.nextLabel + 1 < Label.limit ∧
      PatchSite.locate? loopBody [⟨.dup, .any⟩] = some ⟨4, [⟨.dup, .any⟩]⟩ ∧
      (Machine.ofBody loopBody).entries (Host.always .null) [] 4 11 (.entry ()) = 1 ∧
      ∃ label patched,
        PatchSite.insertGuard ⟨4, [⟨.dup, .any⟩]⟩ "hook" loopBody = .ok (some (label, patched)) ∧
          (Machine.ofBody patched).run (Host.always .null) [] 13 () =
            (.ok ⟨none, 10, 13⟩, ()) := by
  have numbered : loopBody.Numbered := by decide
  have room : loopBody.nextLabel + 1 < Label.limit := by decide
  have found : PatchSite.locate? loopBody [⟨.dup, .any⟩] = some ⟨4, [⟨.dup, .any⟩]⟩ := by decide
  refine ⟨numbered, room, found, by decide, ?_⟩
  obtain ⟨label, patched, inserted, same⟩ :=
    guard_transparent_of_false numbered room found "hook"
  refine ⟨label, patched, inserted, ?_⟩
  have run := same Unit (Host.always .null) (Host.plain_always .null)
    (Host.answers_always .null "hook") [] 11 () (by decide) 13 (by decide)
  rw [run]
  decide

/-- With a hook that answers true, a run ends on the `ret` of the guard when control first comes
to the site as the entry of the method or from the instruction before, and gives the top of the
stack it has there; until then the guard makes no difference. -/
theorem guard_cuts_of_true (numbered : body.Numbered)
    (room : body.nextLabel + 1 < Label.limit)
    (found : PatchSite.locate? body pattern = some site) (hook : String) :
    ∃ label patched, site.insertGuard hook body = .ok (some (label, patched)) ∧
      ∀ (σ : Type) (host : Host σ), host.Plain → host.Answers hook true →
        ∀ (args : List Value) (state : σ),
          let m := Machine.ofBody body
          let g := Machine.ofBody patched
          (∀ s a, m.FirstEntry host args site.index s (.entry state) a →
            ∀ limit, s + 3 ≤ limit →
              g.run host args limit state =
                (.ok ⟨a.config.stack.head?, site.index + 2, s + 3⟩, a.config.host)) ∧
          (∀ limit, (∀ s < limit, ∀ a ∈ m.after host args s (.entry state),
              a.enters site.index = false) →
            g.run host args limit state =
              shiftResult site.index 0 (m.run host args limit state)) := by
  obtain ⟨label, patched, inserted, guarded⟩ := insertGuard_guarded numbered room found hook
  refine ⟨label, patched, inserted, ?_⟩
  intro σ host plain answers args state m g
  constructor
  · intro s a first limit enough
    obtain ⟨spare, rfl⟩ := Nat.exists_eq_add_of_le enough
    have cut := Machine.runFrom_firstEntry args guarded answers first 0 spare
    rw [Arrival.shift_entry, Nat.zero_add] at cut
    exact cut
  · intro limit outside
    have same := Machine.runFrom_shift args guarded plain 0 limit outside
    rw [Arrival.shift_entry] at same
    exact same

/-- The branch to the site goes by the guard; the `nop` before the site leads into it. -/
theorem loop_guard_cuts :
    loopBody.Numbered ∧ loopBody.nextLabel + 1 < Label.limit ∧
      PatchSite.locate? loopBody [⟨.dup, .any⟩] = some ⟨4, [⟨.dup, .any⟩]⟩ ∧
      ∃ label patched,
        PatchSite.insertGuard ⟨4, [⟨.dup, .any⟩]⟩ "hook" loopBody = .ok (some (label, patched)) ∧
          (Machine.ofBody patched).run (Host.always (.int 1)) [] 10 () =
            (.ok ⟨some (.int 0), 6, 10⟩, ()) ∧
          (Machine.ofBody patched).run (Host.always (.int 1)) [] 7 () =
            (.error (.stepLimit 7), ()) := by
  have numbered : loopBody.Numbered := by decide
  have room : loopBody.nextLabel + 1 < Label.limit := by decide
  have found : PatchSite.locate? loopBody [⟨.dup, .any⟩] = some ⟨4, [⟨.dup, .any⟩]⟩ := by decide
  refine ⟨numbered, room, found, ?_⟩
  obtain ⟨label, patched, inserted, both⟩ := guard_cuts_of_true numbered room found "hook"
  obtain ⟨cut, before⟩ := both Unit (Host.always (.int 1)) (Host.plain_always (.int 1))
    (Host.answers_always (.int 1) "hook") [] ()
  refine ⟨label, patched, inserted, ?_, ?_⟩
  · exact cut 7 ⟨⟨4, [.int 0], ()⟩, false⟩ (by decide) 10 (by decide)
  · rw [before 7 (by decide)]
    decide

end SpawnGuard
