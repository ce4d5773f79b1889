import Mathlib.Data.Nat.Find
import Mathlib.Tactic.IntervalCases
import SpawnGuard.Proofs.GuardContract
import SpawnGuard.Proofs.ReadBodies
import SpawnGuard.Proofs.SpawnListing

/-!
How control can come to the guarded subscription although the hook answers true: only by a branch
that lands on the tail itself, since labels stay on the instructions they were on.
-/
namespace SpawnGuard

open PatchSite (shift)

variable {σ : Type}

namespace Machine

variable (m : Machine) (host : Host σ) (args : List Value)

/-- Whether a run under a limit executes the instruction at a position before it enters a site. -/
def ExecutesBefore (site limit position : Nat) (a : Arrival σ) : Prop :=
  ∃ s < limit, ∃ b ∈ m.after host args s a, b.config.pc = position ∧
    ∀ t ≤ s, ∀ c ∈ m.after host args t a, c.enters site = false

variable {m host} {g : Machine} {site : Nat} {hook : String}

theorem after_prefix {s t : Nat} {a b : Arrival σ} (reached : m.after host args s a = some b)
    (earlier : t ≤ s) : ∃ c, m.after host args t a = some c ∧
      m.after host args (s - t) c = some b := by
  rw [← Nat.add_sub_of_le earlier, after_add] at reached
  obtain ⟨c, first, rest⟩ := Option.bind_eq_some_iff.mp reached
  exact ⟨c, first, rest⟩

theorem outside_or_firstEntry (m : Machine) (host : Host σ) (site s : Nat) (a : Arrival σ) :
    (∀ t ≤ s, ∀ c ∈ m.after host args t a, c.enters site = false) ∨
      ∃ t ≤ s, ∃ c, m.FirstEntry host args site t a c := by
  classical
  by_cases ever : ∃ t ≤ s, ∃ c ∈ m.after host args t a, c.enters site = true
  · right
    obtain ⟨bound, c, reached, entered⟩ := Nat.find_spec ever
    refine ⟨Nat.find ever, bound, c, reached, entered, ?_⟩
    intro t before d there
    have early := Nat.find_min ever before
    cases enters : d.enters site with
    | false => rfl
    | true => exact absurd ⟨by omega, d, there, enters⟩ early
  · left
    intro t bound c there
    cases enters : c.enters site with
    | false => rfl
    | true => exact absurd ⟨t, bound, c, there, enters⟩ ever

private theorem pc_in_guard (guarded : Guarded site hook m g) (answers : host.Answers hook true)
    {a b : Arrival σ} (entered : a.enters site = true) {s : Nat}
    (reached : g.after host args s (a.shift site) = some b) : b.config.pc ≤ site + 2 := by
  rcases Nat.lt_or_ge s 2 with short | long
  · obtain ⟨value, _, called⟩ := advance_hook args guarded answers entered
    interval_cases s
    · cases reached
      simp [Arrival.shift, entered]
    · rw [after_succ called] at reached
      cases reached
      exact Nat.le_succ _
  · obtain ⟨c, first, rest⟩ := after_prefix args reached long
    rw [after_guard_of_true args guarded answers entered] at first
    cases first
    cases more : s - 2 with
    | zero =>
      rw [more] at rest
      cases rest
      exact Nat.le_refl _
    | succ n =>
      rw [more, after] at rest
      simp [advance, guarded.ret, execute] at rest

/-- With a hook that answers true, the guarded code executes an instruction exactly when the code
without the guard does so before it enters the site. -/
theorem executes_shift_iff (guarded : Guarded site hook m g) (answers : host.Answers hook true)
    {position : Nat} (inside : position < m.code.length) (behind : site < position) (limit : Nat)
    (a : Arrival σ) :
    g.Executes host args limit (position + 3) (a.shift site) ↔
      m.ExecutesBefore host args site limit position a := by
  constructor
  · rintro ⟨_, s, bound, b, reached, there⟩
    rcases outside_or_firstEntry args m host site s a with outside | ⟨t, earlier, c, first⟩
    · have moved := after_shift args guarded s fun t before => outside t (by omega)
      rw [reached] at moved
      obtain ⟨c, same, rfl⟩ := Option.map_eq_some_iff.mp moved.symm
      refine ⟨s, bound, c, same, ?_, outside⟩
      rw [Arrival.shift_outside (outside s (Nat.le_refl s) c same)] at there
      exact PatchSite.shift_inj.mp (there.trans (PatchSite.shift_of_le (by omega)).symm)
    · exfalso
      obtain ⟨met, entered, before⟩ := first
      have moved := after_shift args guarded t before
      rw [met, Option.map_some] at moved
      obtain ⟨d, first, rest⟩ := after_prefix args reached earlier
      cases first.symm.trans moved
      have low := pc_in_guard args guarded answers entered rest
      omega
  · rintro ⟨s, bound, b, reached, there, outside⟩
    have moved := after_shift args guarded s fun t before => outside t (by omega)
    rw [reached, Option.map_some] at moved
    have landed : shift site position = position + 3 := PatchSite.shift_of_le (by omega)
    obtain ⟨labels, found⟩ := guarded.fetch position _ (List.getElem?_eq_getElem inside)
    rw [landed] at found
    refine ⟨(List.getElem?_eq_some_iff.mp found).1, s, bound, _, moved, ?_⟩
    rw [Arrival.shift_outside (outside s (Nat.le_refl s) b reached), there]
    exact landed

/-- A run gets between two positions only by a branch to a label there or through the first. -/
theorem branch_of_between {low high s : Nat} {state : σ} {b : Arrival σ}
    (reached : m.after host args s (.entry state) = some b)
    (above : low ≤ b.config.pc) (below : b.config.pc ≤ high)
    (outside : ∀ t ≤ s, ∀ c ∈ m.after host args t (.entry state), c.enters low = false) :
    ∃ ins ∈ m.code, ∃ label ∈ ins.branchTarget?, ∃ position,
      m.labels.lookup label = some position ∧ low ≤ position ∧ position ≤ high := by
  induction s generalizing b with
  | zero =>
    exfalso
    have entered := outside 0 (Nat.le_refl 0) b reached
    cases reached
    have first : 0 = low := by
      have zero : low ≤ 0 := above
      omega
    simp [Arrival.enters, Arrival.entry, first] at entered
  | succ s ih =>
    -- Either the last step is the branch looked for, or it came from between the two already.
    obtain ⟨c, before, last⟩ := after_snoc reached
    obtain ⟨ins, fetched, executed, jumped⟩ := advance_eq_some last
    have landing := pc_of_execute executed
    cases taken : ins.branches c.config.stack with
    | true =>
      rw [if_pos taken] at landing
      unfold target at landing
      split at landing
      · cases landing
      · rename_i label named
        split at landing
        · cases landing
        · rename_i position found
          cases landing
          exact ⟨ins, List.mem_of_getElem? fetched, label, named, _, found, above, below⟩
    | false =>
      rw [taken, if_neg Bool.false_ne_true] at landing
      have apart : b.config.pc ≠ low := by
        intro there
        have entered := outside (s + 1) (Nat.le_refl _) b reached
        simp [Arrival.enters, there, jumped, taken] at entered
      exact ih before (by omega) (by omega) fun t bound => outside t (by omega)

end Machine

def bypassListing : String :=
  String.join (["br.s tail", "tail: ldarg.0", "ldc.i4 -1699355994",
    "ldsfld OnBuildingRepairedDelegate", "call \"Int32 Subscribe(Int32, X)\"", "pop",
    "ret"].map (· ++ "\n"))

def bypassBody : Body where
  name := "m"
  code :=
    [⟨.brS, .label ⟨0⟩, []⟩, ⟨.ldarg0, .none, [⟨0⟩]⟩, ⟨.ldcI4, .int repairEvent, []⟩,
      ⟨.ldsfld, .field "OnBuildingRepairedDelegate", []⟩,
      ⟨.call, .method "Int32 Subscribe(Int32, X)", []⟩, ⟨.pop, .none, []⟩, ⟨.ret, .none, []⟩]
  nextLabel := 1

def guardedBypassBody : Body :=
  ⟨"m", PatchSite.guarded bypassBody.code 1 defaultHook ⟨1⟩, 2⟩

/-- The hook answers true and yet the subscription is executed: the branch to it keeps its target
and never meets the guard. -/
theorem branch_bypasses_true_guard :
    Listing.read "m" bypassListing = .ok bypassBody ∧
      transpile defaultHook bypassBody = .ok (guardedBypassBody, .patched 1 ⟨1⟩) ∧
      (Host.always (.int 1)).Answers defaultHook true ∧
      (Machine.ofBody guardedBypassBody).Executes (Host.always (.int 1)) [.object "this"] 5
        (1 + 6) (.entry ()) := by
  have accepted : Listing.read "m" bypassListing = .ok bypassBody := by decide +kernel
  have done : transpile defaultHook bypassBody = .ok (guardedBypassBody, .patched 1 ⟨1⟩) := by
    decide +kernel
  refine ⟨accepted, done, Host.answers_always _ _, by decide, 4, by decide, ?_⟩
  exact ⟨_, rfl, rfl⟩

/-- With a hook that answers true, a patched method executes the subscription at its end exactly
when the method itself does so before control comes to the site as its entry or from the
instruction before. That takes a branch to a label on one of the four instructions up to the
subscription, so a method without such a branch never executes it. -/
theorem subscription_executed_iff {given text hook : String} {body patched : Body} {site : Nat}
    {label : Label} (accepted : Listing.read given text = .ok body)
    (done : transpile hook body = .ok (patched, .patched site label))
    {host : Host σ} (answers : host.Answers hook true) (args : List Value) (limit : Nat)
    (state : σ) :
    let g := Machine.ofBody patched
    (∃ call, patched.code[site + 6]? = some call ∧ body.code[site + 3]? = some call ∧
      InstructionTest.accepts ⟨.call, .startsWith "Int32 Subscribe"⟩ call = true) ∧
    (g.Executes host args limit (site + 6) (.entry state) ↔
      (Machine.ofBody body).ExecutesBefore host args site limit (site + 3) (.entry state)) ∧
    (g.Executes host args limit (site + 6) (.entry state) →
      ∃ ins ∈ body.code, ∃ target ∈ ins.branchTarget?, ∃ position,
        body.resolve target = some position ∧ site ≤ position ∧ position ≤ site + 3) := by
  intro g
  have numbered := Listing.numbered_of_read accepted
  obtain ⟨located, found, rfl, inserted⟩ := transpile_eq_patched done
  obtain ⟨_, room, rfl, rfl⟩ := PatchSite.insertGuard_eq_some.mp inserted
  obtain ⟨_, inside, matched⟩ := PatchSite.locate?_eq_some found
  have guarded := Machine.guarded_ofBody numbered inside hook (body.nextLabel + 1)
  obtain ⟨call, called, accepts⟩ := Pattern.getElem?_of_matchesAt matched 3 rfl
  obtain ⟨bound, _⟩ := List.getElem?_eq_some_iff.mp called
  have same := Machine.executes_shift_iff args guarded answers bound (by omega) limit (.entry state)
  rw [Arrival.shift_entry] at same
  refine ⟨⟨call, ?_, called, accepts⟩, same, ?_⟩
  · have moved := PatchSite.getElem?_guarded_shift hook ⟨body.nextLabel⟩ (Nat.le_of_lt inside)
      (located.index + 3)
    rw [PatchSite.shift_of_le (by omega), called, Option.map_some, if_neg (by omega)] at moved
    exact moved
  · intro executed
    obtain ⟨s, _, b, reached, there, outside⟩ := same.mp executed
    obtain ⟨ins, member, target, branch, position, resolved, within⟩ :=
      Machine.branch_of_between args reached (by omega) (Nat.le_of_eq there) outside
    rw [Machine.ofBody, Body.lookup_labelIndex] at resolved
    exact ⟨ins, member, target, branch, position, resolved, within⟩

/-- The spawn method of the game has no such branch: behind an open gate it never subscribes. -/
theorem spawnBody_not_executes_subscription :
    Listing.read "SimCellOccupier.OnSpawn" spawnListing = .ok spawnBody ∧
      transpile defaultHook spawnBody = .ok (guardedSpawnBody defaultHook, .patched 9 ⟨2⟩) ∧
      (Host.always (.int 1)).Answers defaultHook true ∧
      ¬ (Machine.ofBody (guardedSpawnBody defaultHook)).Executes (Host.always (.int 1))
        [.object "SimCellOccupier"] 10000 15 (.entry ()) := by
  have answers : (Host.always (.int 1)).Answers defaultHook true := Host.answers_always _ _
  refine ⟨read_spawnListing, transpile_spawnBody defaultHook, answers, ?_⟩
  obtain ⟨_, _, needs⟩ := subscription_executed_iff read_spawnListing
    (transpile_spawnBody defaultHook) answers [.object "SimCellOccupier"] 10000 ()
  intro executed
  obtain ⟨ins, member, target, branch, position, resolved, low, _⟩ := needs executed
  have early : ∀ ins ∈ spawnBody.code, ∀ target ∈ ins.branchTarget?,
      ∀ position ∈ spawnBody.resolve target, position < 9 := by decide
  have before := early ins member target branch position resolved
  omega

end SpawnGuard
