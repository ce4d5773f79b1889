import SpawnGuard.Proofs.HostMoves
import SpawnGuard.Proofs.SoundRuns

/-!
What the step limit does to a run. A run goes on in the same way under every limit until it has
executed as many instructions as it may, so a limit can cut a run and cannot change it; what a cut
run asked of its host is the beginning of what a longer one asks.
-/
namespace SpawnGuard

variable {σ : Type}

/-- What a run asks of its host. -/
inductive Request where
  | call (signature : String) (stack : Stack)
  | loadStatic (field : String)
  | loadField (object : Value) (field : String)
  | storeField (object : Value) (field : String) (value : Value)
  deriving DecidableEq, Repr

namespace Host

/-- A host that also writes down what it is asked, in order. -/
def recording (host : Host σ) : Host (σ × List Request) where
  call signature stack state :=
    let (answer, next) := host.call signature stack state.1
    (answer, next, state.2 ++ [.call signature stack])
  loadStatic field state :=
    let (answer, next) := host.loadStatic field state.1
    (answer, next, state.2 ++ [.loadStatic field])
  loadField object field state :=
    let (answer, next) := host.loadField object field state.1
    (answer, next, state.2 ++ [.loadField object field])
  storeField object field value state :=
    let (answer, next) := host.storeField object field value state.1
    (answer, next, state.2 ++ [.storeField object field value])

theorem moves_recording (host : Host σ) :
    host.recording.Moves fun before after => before.2 <+: after.2 where
  call _ _ state := List.prefix_append state.2 _
  loadStatic _ state := List.prefix_append state.2 _
  loadField _ _ state := List.prefix_append state.2 _
  storeField _ _ _ state := List.prefix_append state.2 _

end Host

def Config.forget (c : Config (σ × List Request)) : Config σ := ⟨c.pc, c.stack, c.host.1⟩

def Step.forget : Step (σ × List Request) → Step σ
  | next c => .next c.forget
  | returned value state => .returned value state.1
  | failed fault state => .failed fault state.1

namespace Machine

variable {m : Machine} {host : Host σ} {args : List Value} {limit larger count : Nat} {state : σ}

/-- What a run under a limit asks of its host. -/
def requests (m : Machine) (host : Host σ) (args : List Value) (limit : Nat) (state : σ) :
    List Request :=
  (m.run host.recording args limit (state, [])).2.2

/-- How a run under a limit ends: with which answer and which host, and after how many executed
instructions. The instruction that returns or fails is executed; the one a limit stops in front
of is not. -/
inductive Ended (m : Machine) (host : Host σ) (args : List Value) (limit : Nat) (state : σ) :
    Nat → Except Fault Exit × σ → Prop where
  | left {count : Nat} {a : Arrival σ} (reached : m.after host args count (.entry state) = some a)
      (outside : m.code[a.config.pc]? = none) :
      Ended m host args limit state count (.error .fellOffEnd, a.config.host)
  | cut {a : Arrival σ} {ins : Instruction Label}
      (reached : m.after host args limit (.entry state) = some a)
      (fetched : m.code[a.config.pc]? = some ins) :
      Ended m host args limit state limit (.error (.stepLimit limit), a.config.host)
  | returned {count : Nat} {a : Arrival σ} {ins : Instruction Label} {value : Option Value}
      {last : σ} (reached : m.after host args count (.entry state) = some a)
      (fetched : m.code[a.config.pc]? = some ins)
      (executed : m.execute host args ins a.config = .returned value last) :
      Ended m host args limit state (count + 1) (.ok ⟨value, a.config.pc, count + 1⟩, last)
  | failed {count : Nat} {a : Arrival σ} {ins : Instruction Label} {fault : Fault} {last : σ}
      (reached : m.after host args count (.entry state) = some a)
      (fetched : m.code[a.config.pc]? = some ins)
      (executed : m.execute host args ins a.config = .failed fault last) :
      Ended m host args limit state (count + 1) (.error fault, last)

theorem after_advance {s : Nat} {a b c : Arrival σ} (reached : m.after host args s a = some b)
    (step : m.advance host args b = some c) : m.after host args (s + 1) a = some c := by
  rw [after_add, reached, Option.bind_some, after_succ step]
  rfl

theorem ended_runFrom {taken : Nat} {a : Arrival σ}
    (reached : m.after host args taken (.entry state) = some a) (allowed : Nat) :
    ∃ count ≤ taken + allowed, m.Ended host args (taken + allowed) state count
      (m.runFrom host args taken allowed a.config) := by
  induction allowed generalizing taken a with
  | zero =>
    cases fetched : m.code[a.config.pc]? with
    | none =>
      rw [runFrom_of_none fetched]
      exact ⟨taken, Nat.le_refl _, .left reached fetched⟩
    | some ins =>
      rw [runFrom_zero fetched]
      exact ⟨taken, Nat.le_refl _, .cut reached fetched⟩
  | succ allowed ih =>
    cases fetched : m.code[a.config.pc]? with
    | none =>
      rw [runFrom_of_none fetched]
      exact ⟨taken, Nat.le_add_right _ _, .left reached fetched⟩
    | some ins =>
      cases executed : m.execute host args ins a.config with
      | next c =>
        have next := after_advance reached (advance_of_next fetched executed)
        rw [runFrom_of_next fetched executed, ← Nat.add_assoc, Nat.add_right_comm]
        exact ih next
      | returned value last =>
        rw [runFrom_of_returned fetched executed]
        exact ⟨taken + 1, by omega, .returned reached fetched executed⟩
      | failed fault last =>
        rw [runFrom_of_failed fetched executed]
        exact ⟨taken + 1, by omega, .failed reached fetched executed⟩

/-- Every run ends in one of the four ways, within its limit. -/
theorem ended_run (m : Machine) (host : Host σ) (args : List Value) (limit : Nat) (state : σ) :
    ∃ count ≤ limit, m.Ended host args limit state count (m.run host args limit state) := by
  have first : m.after host args 0 (.entry state) = some (.entry state) := rfl
  obtain ⟨count, within, ended⟩ := ended_runFrom first limit
  rw [Nat.zero_add] at within ended
  exact ⟨count, within, ended⟩

/-- A run under any limit that lets it get somewhere goes on from there. -/
theorem run_of_after {s spare : Nat} {a : Arrival σ}
    (reached : m.after host args s (.entry state) = some a) :
    m.run host args (s + spare) state = m.runFrom host args s spare a.config := by
  have same := runFrom_after reached 0 spare
  rwa [Nat.zero_add] at same

/-- A run that has ended ends so under every limit that lets it get there, unless it was cut. -/
theorem Ended.run_eq_or_cut {result : Except Fault Exit × σ}
    (ended : m.Ended host args limit state count result) (within : count ≤ larger) :
    m.run host args larger state = result ∨
      result.1 = .error (.stepLimit limit) ∧
        ∃ a, m.after host args limit (.entry state) = some a ∧ result.2 = a.config.host := by
  obtain ⟨spare, rfl⟩ := Nat.exists_eq_add_of_le within
  cases ended with
  | left reached outside =>
    left
    rw [run_of_after reached, runFrom_of_none outside]
  | cut reached fetched => exact .inr ⟨rfl, _, reached, rfl⟩
  | returned reached fetched executed =>
    left
    rw [Nat.add_assoc, Nat.add_comm 1, run_of_after reached, runFrom_of_returned fetched executed]
  | failed reached fetched executed =>
    left
    rw [Nat.add_assoc, Nat.add_comm 1, run_of_after reached, runFrom_of_failed fetched executed]

private theorem forget_pushAnswer (pc : Nat) (stack : Stack) (answer : Except Fault Value)
    (state : σ × List Request) :
    (pushAnswer pc stack (answer, state)).forget = pushAnswer pc stack (answer, state.1) := by
  cases answer <;> rfl

private theorem forget_jump (m : Machine) (ins : Instruction Label) (pc : Nat) (stack : Stack)
    (state : σ × List Request) :
    (m.jump ins pc stack state).forget = m.jump ins pc stack state.1 := by
  unfold jump
  cases m.target pc ins.branchTarget? <;> rfl

private theorem forget_branchIf (m : Machine) (wanted : Bool) (ins : Instruction Label)
    (c : Config (σ × List Request)) :
    (m.branchIf wanted ins c).forget = m.branchIf wanted ins c.forget := by
  obtain ⟨pc, _ | ⟨condition, stack⟩, state⟩ := c
  · rfl
  · by_cases taken : condition.isTrue = wanted
    · simpa [branchIf, Config.forget, taken] using forget_jump m ins pc stack state
    · simp [branchIf, Config.forget, taken, Step.forget]

theorem execute_recording (m : Machine) (host : Host σ) (args : List Value)
    (ins : Instruction Label) (c : Config (σ × List Request)) :
    (m.execute host.recording args ins c).forget = m.execute host args ins c.forget := by
  obtain ⟨pc, stack, state⟩ := c
  cases named : ins.opcode
  all_goals simp only [execute, named, Config.forget]
  case nop | ldnull | ldcI40 | ldcI41 | ret => rfl
  case ldarg0 | ldarg1 =>
    unfold pushArgument
    split <;> rfl
  case ldcI4 =>
    unfold pushConstant
    split <;> rfl
  case ldsfld => exact forget_pushAnswer pc stack _ _
  case ldfld =>
    cases stack with
    | nil => rfl
    | cons object stack => exact forget_pushAnswer pc stack _ _
  case stfld =>
    rcases stack with _ | ⟨value, _ | ⟨object, stack⟩⟩
    · rfl
    · rfl
    · rcases answer : host.storeField object ins.operand.text value state.1 with ⟨_ | _, next⟩
      · simp [Host.recording, answer, Step.forget]
      · simp [Host.recording, answer, Step.forget, Config.forget]
  case call | callvirt =>
    rcases answer : host.call ins.operand.text stack state.1 with ⟨_ | _, next⟩
    · simp [Host.recording, answer, Step.forget]
    · simp [Host.recording, answer, Step.forget, Config.forget]
  case pop | dup => cases stack <;> rfl
  case br | brS => exact forget_jump m ins pc stack state
  case brfalse | brfalseS | brtrue | brtrueS => exact forget_branchIf m _ ins ⟨pc, stack, state⟩

theorem runFrom_recording (m : Machine) (host : Host σ) (args : List Value) (taken allowed : Nat)
    (c : Config (σ × List Request)) :
    (m.runFrom host.recording args taken allowed c).map id Prod.fst =
      m.runFrom host args taken allowed c.forget := by
  induction allowed generalizing taken c with
  | zero =>
    cases fetched : m.code[c.pc]? with
    | none =>
      have left : m.code[c.forget.pc]? = none := fetched
      rw [runFrom_of_none fetched, runFrom_of_none left]
      rfl
    | some ins =>
      have found : m.code[c.forget.pc]? = some ins := fetched
      rw [runFrom_zero fetched, runFrom_zero found]
      rfl
  | succ allowed ih =>
    cases fetched : m.code[c.pc]? with
    | none =>
      have left : m.code[c.forget.pc]? = none := fetched
      rw [runFrom_of_none fetched, runFrom_of_none left]
      rfl
    | some ins =>
      have found : m.code[c.forget.pc]? = some ins := fetched
      have same := execute_recording m host args ins c
      cases executed : m.execute host.recording args ins c with
      | next d =>
        rw [executed] at same
        rw [runFrom_of_next fetched executed, runFrom_of_next found same.symm]
        exact ih (taken + 1) d
      | returned value last =>
        rw [executed] at same
        rw [runFrom_of_returned fetched executed, runFrom_of_returned found same.symm]
        rfl
      | failed fault last =>
        rw [executed] at same
        rw [runFrom_of_failed fetched executed, runFrom_of_failed found same.symm]
        rfl

/-- Writing the requests down changes nothing in a run. -/
theorem run_recording (m : Machine) (host : Host σ) (args : List Value) (limit : Nat) (state : σ) :
    (m.run host.recording args limit (state, [])).map id Prod.fst =
      m.run host args limit state :=
  runFrom_recording m host args 0 limit ⟨0, [], (state, [])⟩

/-- What a run asks of its host is the beginning of what it asks under a larger limit. -/
theorem requests_prefix (m : Machine) (host : Host σ) (args : List Value) (state : σ)
    (more : limit ≤ larger) :
    m.requests host args limit state <+: m.requests host args larger state := by
  unfold requests
  obtain ⟨count, within, ended⟩ := ended_run m host.recording args limit (state, [])
  rcases ended.run_eq_or_cut (Nat.le_trans within more) with same | ⟨_, a, reached, there⟩
  · rw [same]
  · obtain ⟨spare, rfl⟩ := Nat.exists_eq_add_of_le more
    rw [there, run_of_after reached]
    exact moved_runFrom host.moves_recording (fun _ => List.prefix_refl _)
      (fun first second => first.trans second) limit spare a.config

/-- An instruction that reaches the step limit does so because its host says so. -/
theorem raises_of_execute {ins : Instruction Label} {c : Config σ} {n : Nat} {last : σ}
    (executed : m.execute host args ins c = .failed (.stepLimit n) last) :
    host.Raises (.stepLimit n) := by
  cases fails_of_execute executed with
  | refused raised => exact raised
  | astray branches missed =>
    unfold target at missed
    split at missed
    · cases missed
    · split at missed <;> cases missed

theorem Ended.of_stepLimit {n : Nat} {result : Except Fault Exit × σ}
    (ended : m.Ended host args limit state count result)
    (quiet : ∀ n, ¬ host.Raises (.stepLimit n)) (stopped : result.1 = .error (.stepLimit n)) :
    n = limit ∧ count = limit := by
  cases ended with
  | left => cases stopped
  | cut =>
    cases stopped
    exact ⟨rfl, rfl⟩
  | returned => cases stopped
  | failed reached fetched executed =>
    cases stopped
    exact absurd (raises_of_execute executed) (quiet n)

theorem Ended.steps_eq {exit : Exit} {result : Except Fault Exit × σ}
    (ended : m.Ended host args limit state count result) (returned : result.1 = .ok exit) :
    exit.steps = count ∧ 1 ≤ count := by
  cases ended with
  | returned =>
    cases returned
    exact ⟨rfl, Nat.le_add_left 1 _⟩
  | _ => cases returned

end Machine

/-- A step limit cuts a run and changes nothing else. A run under a limit has executed that many
instructions at most; unless the limit stops it, it ends in the same way under every larger limit,
with the same answer, the same host and the same requests. The limit stops it after exactly so many
instructions, and its requests are then the first of those under a larger limit. Leaving the code
after as many instructions is no reason to stop it. -/
theorem limit_only_cuts (body : Body) (args : List Value) {host : Host σ}
    (quiet : ∀ n, ¬ host.Raises (.stepLimit n)) (state : σ) {limit larger : Nat}
    (more : limit ≤ larger) :
    let m := Machine.ofBody body
    (∀ n, (m.run host.recording args n (state, [])).map id Prod.fst = m.run host args n state) ∧
    ∃ count ≤ limit, m.Ended host args limit state count (m.run host args limit state) ∧
      (∀ exit, (m.run host args limit state).1 = .ok exit → exit.steps = count ∧ 1 ≤ count) ∧
      ((m.run host args limit state).1 ≠ .error (.stepLimit limit) →
        m.run host args larger state = m.run host args limit state ∧
          m.requests host args larger state = m.requests host args limit state) ∧
      (∀ n, (m.run host args limit state).1 = .error (.stepLimit n) →
        n = limit ∧ count = limit ∧
          m.requests host args limit state <+: m.requests host args larger state) ∧
      ∀ a, m.after host args limit (.entry state) = some a → m.code[a.config.pc]? = none →
        m.run host args limit state = (.error .fellOffEnd, a.config.host) := by
  intro m
  refine ⟨fun n => m.run_recording host args n state, ?_⟩
  obtain ⟨count, within, ended⟩ := m.ended_run host args limit state
  refine ⟨count, within, ended, fun exit => ended.steps_eq, fun uncut => ⟨?_, ?_⟩, ?_, ?_⟩
  · rcases ended.run_eq_or_cut (Nat.le_trans within more) with same | ⟨stopped, _⟩
    · exact same
    · exact absurd stopped uncut
  · obtain ⟨count, within, ended⟩ := m.ended_run host.recording args limit (state, [])
    unfold Machine.requests
    rcases ended.run_eq_or_cut (Nat.le_trans within more) with same | ⟨stopped, _⟩
    · rw [same]
    · rw [← m.run_recording host args limit state] at uncut
      exact absurd stopped uncut
  · intro n stopped
    obtain ⟨rfl, rfl⟩ := ended.of_stepLimit quiet stopped
    exact ⟨rfl, rfl, m.requests_prefix host args state more⟩
  · intro a reached outside
    have left : m.run host args (limit + 0) state = m.runFrom host args limit 0 a.config :=
      Machine.run_of_after reached
    exact left.trans (Machine.runFrom_of_none outside)

/-- A method that calls another for ever. -/
def tickBody : Body where
  name := "tick"
  code := [⟨.call, .method "Void Tick()", [⟨0⟩]⟩, ⟨.br, .label ⟨0⟩, []⟩]
  nextLabel := 1

/-- Three instructions of the endless method make two of the three calls that six make; the loop
of eleven instructions does not notice a larger limit. -/
theorem tick_cut_and_loop_uncut :
    (∀ n, ¬ (Host.always .null).Raises (.stepLimit n)) ∧ 3 ≤ 6 ∧ 11 ≤ 100 ∧
      (let tick := Machine.ofBody tickBody
      (tick.run (Host.always .null) [] 3 ()).1 = .error (.stepLimit 3) ∧
        tick.requests (Host.always .null) [] 3 () =
          [.call "Void Tick()" [], .call "Void Tick()" [.null]] ∧
        tick.requests (Host.always .null) [] 3 () <+:
          tick.requests (Host.always .null) [] 6 ()) ∧
      let loop := Machine.ofBody loopBody
      (loop.run (Host.always .null) [] 11 ()).1 ≠ .error (.stepLimit 11) ∧
        loop.run (Host.always .null) [] 100 () = (.ok ⟨none, 7, 11⟩, ()) := by
  have quiet : ∀ n, ¬ (Host.always .null).Raises (.stepLimit n) :=
    fun n => Host.not_raises_always .null _
  refine ⟨quiet, by decide, by decide, ⟨by decide, by decide, ?_⟩, by decide, ?_⟩
  · obtain ⟨_, _, _, _, _, _, stopped, _⟩ :=
      limit_only_cuts tickBody [] quiet () (show 3 ≤ 6 by decide)
    exact (stopped 3 (by decide)).2.2
  · obtain ⟨_, _, _, _, _, uncut, _⟩ :=
      limit_only_cuts loopBody [] quiet () (show 11 ≤ 100 by decide)
    exact (uncut (by decide)).1

end SpawnGuard
