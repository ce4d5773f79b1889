import SpawnGuard.Proofs.GuardedStep

/-!
Runs of the guarded code. Up to the first entry of the site they are the runs of the code without
the guard; each entry costs two steps if the hook answers false, and ends the run if it answers
true.
-/
namespace SpawnGuard

open PatchSite (shift)

variable {σ : Type}

def Exit.shift (site more : Nat) (exit : Exit) : Exit :=
  ⟨exit.returned, PatchSite.shift site exit.index, exit.steps + more⟩

namespace Machine

/-- The result of a run at shifted positions, with some more steps taken if it returned; what the
run left in its host is the same. -/
def shiftResult (site more : Nat) : Except Fault Exit × σ → Except Fault Exit × σ
  | (.ok exit, state) => (.ok (exit.shift site more), state)
  | (.error fault, state) => (.error (fault.shift site), state)

variable {site : Nat} {hook : String} {m g : Machine} {host : Host σ} (args : List Value)

theorem advance_shift (guarded : Guarded site hook m g) {a : Arrival σ}
    (outside : a.enters site = false) :
    g.advance host args (a.shift site) = (m.advance host args a).map (Arrival.shift site) := by
  rw [Arrival.shift_outside outside]
  cases fetched : m.code[a.config.pc]? with
  | none => simp [advance, fetched, guarded.leaves _ fetched]
  | some ins =>
    obtain ⟨ins', found, branches, follows⟩ := follows_of_fetched guarded fetched
    simp only [advance, fetched, found, branches]
    revert follows
    generalize m.execute host args ins a.config = first
    generalize g.execute host args ins' _ = second
    intro follows
    cases follows <;> rfl

theorem after_shift (guarded : Guarded site hook m g) {a : Arrival σ} (s : Nat)
    (outside : ∀ t < s, ∀ b ∈ m.after host args t a, b.enters site = false) :
    g.after host args s (a.shift site) =
      (m.after host args s a).map (Arrival.shift site) := by
  induction s generalizing a with
  | zero => rfl
  | succ s ih =>
    simp only [after]
    rw [advance_shift args guarded (outside 0 (by omega) a rfl)]
    cases step : m.advance host args a with
    | none => rfl
    | some b =>
      apply ih
      intro t bound c reached
      exact outside (t + 1) (by omega) c ((after_succ step).trans reached)

theorem runFrom_shift_succ (guarded : Guarded site hook m g) (plain : host.Plain)
    {a : Arrival σ} (outside : a.enters site = false) {taken taken' allowed allowed' more : Nat}
    (stops : m.advance host args a = none → taken' = taken + more)
    (goes : ∀ b, m.advance host args a = some b →
      g.runFrom host args (taken' + 1) allowed' (b.shift site).config =
        shiftResult site more (m.runFrom host args (taken + 1) allowed b.config)) :
    g.runFrom host args taken' (allowed' + 1) (a.shift site).config =
      shiftResult site more (m.runFrom host args taken (allowed + 1) a.config) := by
  cases step : m.advance host args a with
  | some b =>
    have moved : g.advance host args (a.shift site) = _ := advance_shift args guarded outside
    rw [step] at moved
    rw [runFrom_advance moved, runFrom_advance step, goes b step]
  | none =>
    have same := stops step
    rw [Arrival.shift_outside outside, runFrom.eq_def, runFrom.eq_def m]
    cases fetched : m.code[a.config.pc]? with
    | none => simp [fetched, guarded.leaves _ fetched, shiftResult, Fault.shift]
    | some ins =>
      obtain ⟨ins', found, _, follows⟩ := follows_of_fetched guarded fetched
      simp only [advance, fetched] at step
      simp only [fetched, found]
      revert follows step
      generalize m.execute host args ins a.config = first
      generalize g.execute host args ins' _ = second
      intro follows step
      cases follows with
      | next c => cases step
      | returned value state => simp [shiftResult, Exit.shift, same, Nat.add_right_comm]
      | failed fault state => rfl
      | refused fault state raised =>
        obtain ⟨own, rfl⟩ := plain fault raised
        rfl

theorem runFrom_shift_zero (guarded : Guarded site hook m g) (a : Arrival σ) (taken more : Nat) :
    g.runFrom host args taken 0 (a.shift site).config =
      shiftResult site more (m.runFrom host args taken 0 a.config) := by
  rw [runFrom.eq_def, runFrom.eq_def m]
  cases entered : a.enters site with
  | true =>
    obtain ⟨there, _⟩ := Arrival.enters_iff.mp entered
    have fetched : m.code[a.config.pc]? = some _ :=
      List.getElem?_eq_getElem (there ▸ guarded.inside)
    simp [Arrival.shift, entered, guarded.call, fetched, shiftResult, Fault.shift]
  | false =>
    rw [Arrival.shift_outside entered]
    cases fetched : m.code[a.config.pc]? with
    | none => simp [fetched, guarded.leaves _ fetched, shiftResult, Fault.shift]
    | some ins =>
      obtain ⟨labels, found⟩ := guarded.fetch _ ins fetched
      simp [fetched, found, shiftResult, Fault.shift]

/-- A run that does not enter the site within its limit is not changed by the guard. -/
theorem runFrom_shift (guarded : Guarded site hook m g) (plain : host.Plain) {a : Arrival σ}
    (taken limit : Nat)
    (outside : ∀ s < limit, ∀ b ∈ m.after host args s a, b.enters site = false) :
    g.runFrom host args taken limit (a.shift site).config =
      shiftResult site 0 (m.runFrom host args taken limit a.config) := by
  induction limit generalizing a taken with
  | zero => exact runFrom_shift_zero args guarded a taken 0
  | succ limit ih =>
    refine runFrom_shift_succ args guarded plain (outside 0 (by omega) a rfl) (fun _ => rfl) ?_
    intro b step
    apply ih
    intro s bound c reached
    exact outside (s + 1) (by omega) c ((after_succ step).trans reached)

theorem advance_hook {truth : Bool} (guarded : Guarded site hook m g)
    (answers : host.Answers hook truth) {a : Arrival σ} (entered : a.enters site = true) :
    ∃ value, value.isTrue = truth ∧ g.advance host args (a.shift site) =
      some ⟨⟨site + 1, value :: a.config.stack, a.config.host⟩, false⟩ := by
  obtain ⟨value, truthful, answer⟩ := answers a.config.stack a.config.host
  refine ⟨value, truthful, ?_⟩
  have there : a.shift site = ⟨⟨site, a.config.stack, a.config.host⟩, a.jumped⟩ := by
    simp [Arrival.shift, entered]
  rw [there]
  exact advance_of_call guarded.call answer

theorem after_guard_of_false (guarded : Guarded site hook m g) (answers : host.Answers hook false)
    {a : Arrival σ} (entered : a.enters site = true) :
    g.after host args 2 (a.shift site) =
      some (Arrival.shift site { a with jumped := true }) := by
  obtain ⟨value, falsy, called⟩ := advance_hook args guarded answers entered
  obtain ⟨label, skip, past⟩ := guarded.skip
  obtain ⟨there, _⟩ := Arrival.enters_iff.mp entered
  rw [after_succ called, after]
  have jumped : g.advance host args
      ⟨⟨site + 1, value :: a.config.stack, a.config.host⟩, false⟩ =
        some ⟨⟨site + 3, a.config.stack, a.config.host⟩, true⟩ := by
    unfold advance
    simp only [skip]
    simp [execute, branchIf, falsy, jump, Instruction.branchTarget?, Opcode.isBranch,
      Opcode.kind, target_eq, past, Instruction.branches]
  simp [jumped, after, Arrival.shift, Arrival.enters, there, PatchSite.shift_of_le]

theorem after_guard_of_true (guarded : Guarded site hook m g) (answers : host.Answers hook true)
    {a : Arrival σ} (entered : a.enters site = true) :
    g.after host args 2 (a.shift site) =
      some ⟨⟨site + 2, a.config.stack, a.config.host⟩, false⟩ := by
  obtain ⟨value, truthy, called⟩ := advance_hook args guarded answers entered
  obtain ⟨label, skip, _⟩ := guarded.skip
  rw [after_succ called, after]
  have passed : g.advance host args
      ⟨⟨site + 1, value :: a.config.stack, a.config.host⟩, false⟩ =
        some ⟨⟨site + 2, a.config.stack, a.config.host⟩, false⟩ := by
    unfold advance
    simp only [skip]
    simp [execute, branchIf, truthy, Instruction.branches]
  simp [passed, after]

theorem runFrom_guard_of_true (guarded : Guarded site hook m g) (answers : host.Answers hook true)
    {a : Arrival σ} (entered : a.enters site = true) (taken allowed : Nat) :
    g.runFrom host args taken (2 + (allowed + 1)) (a.shift site).config =
      (.ok ⟨a.config.stack.head?, site + 2, taken + 3⟩, a.config.host) := by
  rw [runFrom_after (after_guard_of_true args guarded answers entered), runFrom.eq_def]
  simp [guarded.ret, execute]

/-- With a hook that answers true, a run ends on the `ret` of the guard at its first entry. -/
theorem runFrom_firstEntry (guarded : Guarded site hook m g) (answers : host.Answers hook true)
    {s : Nat} {a b : Arrival σ} (first : m.FirstEntry host args site s a b) (taken spare : Nat) :
    g.runFrom host args taken (s + 3 + spare) (a.shift site).config =
      (.ok ⟨b.config.stack.head?, site + 2, taken + s + 3⟩, b.config.host) := by
  obtain ⟨reached, entered, before⟩ := first
  have moved := after_shift args guarded s before
  rw [reached, Option.map_some] at moved
  have budget : s + 3 + spare = s + (2 + (spare + 1)) := by omega
  rw [budget, runFrom_after moved, runFrom_guard_of_true args guarded answers entered]

theorem entries_jumped (limit : Nat) (a : Arrival σ) :
    m.entries host args site limit a =
      m.entries host args site limit { a with jumped := true } +
        if a.enters site then 1 else 0 := by
  have outside : Arrival.enters site { a with jumped := true } = false := by
    simp [Arrival.enters]
  cases limit with
  | zero => cases entered : a.enters site <;> simp [entries, after, outside, entered]
  | succ limit =>
    have same : m.advance host args { a with jumped := true } = m.advance host args a := rfl
    rw [entries_succ, entries_succ, outside, same]
    simp [Nat.add_comm]

/-- With a hook that answers false, a run that ends within its limit ends the same way in the
guarded code, two steps later for each entry of the site. -/
theorem runFrom_shift_of_false (guarded : Guarded site hook m g) (plain : host.Plain)
    (answers : host.Answers hook false) {a : Arrival σ} {taken limit : Nat}
    (ended : (m.runFrom host args taken limit a.config).1 ≠ .error (.stepLimit (taken + limit)))
    (more spare : Nat) :
    g.runFrom host args (taken + more)
        (limit + 2 * m.entries host args site limit a + spare) (a.shift site).config =
      shiftResult site (more + 2 * m.entries host args site limit a)
        (m.runFrom host args taken limit a.config) := by
  induction limit generalizing a taken more spare with
  | zero =>
    cases fetched : m.code[a.config.pc]? with
    | some ins =>
      exfalso
      apply ended
      rw [runFrom.eq_def]
      simp [fetched]
    | none =>
      have outside : a.enters site = false := by
        have bound := List.getElem?_eq_none_iff.mp fetched
        have inside := guarded.inside
        have apart : a.config.pc ≠ site := by omega
        simp [Arrival.enters, apart]
      have moved := guarded.leaves _ fetched
      rw [Arrival.shift_outside outside, runFrom_of_none moved, runFrom_of_none fetched]
      rfl
  | succ limit ih =>
    -- Also for the arrival behind the guard, which differs from `a` in how control came.
    have onward : ∀ (b : Arrival σ) (late : Nat), b.config = a.config → b.enters site = false →
        g.runFrom host args (taken + late)
            (limit + 1 + 2 * m.entries host args site (limit + 1) b + spare)
            (b.shift site).config =
          shiftResult site (late + 2 * m.entries host args site (limit + 1) b)
            (m.runFrom host args taken (limit + 1) b.config) := by
      intro b late same outside
      have count := entries_succ m host args site limit b
      rw [outside] at count
      have budget : limit + 1 + 2 * m.entries host args site (limit + 1) b + spare =
          limit + 2 * m.entries host args site (limit + 1) b + spare + 1 := by omega
      rw [budget]
      refine runFrom_shift_succ args guarded plain outside ?_ ?_
      · intro stopped
        rw [count, stopped]
        rfl
      · intro c step
        rw [step] at count
        rw [count, Nat.add_right_comm taken late 1]
        simp only [Bool.false_eq_true, if_false, Nat.zero_add]
        apply ih
        rw [← same, runFrom_advance step] at ended
        rwa [Nat.add_right_comm]
    cases entered : a.enters site with
    | false => exact onward a more rfl entered
    | true =>
      -- The run is past the guard two steps later, as if a branch had led to the site.
      have passed := after_guard_of_false args guarded answers entered
      rw [entries_jumped, entered, if_pos rfl]
      have budget : limit + 1 +
          2 * (m.entries host args site (limit + 1) { a with jumped := true } + 1) + spare =
          2 + (limit + 1 + 2 * m.entries host args site (limit + 1) { a with jumped := true } +
            spare) := by omega
      rw [budget, runFrom_after passed, Nat.add_assoc,
        onward { a with jumped := true } (more + 2) rfl (by simp [Arrival.enters])]
      congr 1
      omega

end Machine

end SpawnGuard
