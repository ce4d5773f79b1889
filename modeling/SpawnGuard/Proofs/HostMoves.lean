import SpawnGuard.Proofs.Arrivals

/-!
What a run does to the state of its host. A run gets at it by the requests it makes alone, so the
state moves as the requests let it: over one instruction, whichever way that ends, and over a whole
run, wherever that stops.
-/
namespace SpawnGuard

variable {σ : Type}

/-- Whatever the host is asked, its state moves along a relation, also where it refuses. -/
structure Host.Moves (host : Host σ) (moved : σ → σ → Prop) : Prop where
  call : ∀ signature stack state, moved state (host.call signature stack state).2
  loadStatic : ∀ field state, moved state (host.loadStatic field state).2
  loadField : ∀ object field state, moved state (host.loadField object field state).2
  storeField : ∀ object field value state, moved state (host.storeField object field value state).2

/-- The state of the host behind a step. -/
def Step.host : Step σ → σ
  | next c => c.host
  | returned _ state => state
  | failed _ state => state

namespace Machine

variable {m : Machine} {host : Host σ} {args : List Value} {moved : σ → σ → Prop}

@[simp] theorem host_pushAnswer (pc : Nat) (stack : Stack) (answer : Except Fault Value × σ) :
    (pushAnswer pc stack answer).host = answer.2 := by
  obtain ⟨_ | value, state⟩ := answer <;> rfl

@[simp] theorem host_jump (m : Machine) (ins : Instruction Label) (pc : Nat) (stack : Stack)
    (state : σ) : (m.jump ins pc stack state).host = state := by
  unfold jump
  split <;> rfl

@[simp] theorem host_branchIf (m : Machine) (wanted : Bool) (ins : Instruction Label)
    (c : Config σ) : (m.branchIf wanted ins c).host = c.host := by
  unfold branchIf
  split
  · rfl
  · split
    · exact host_jump m ins c.pc _ c.host
    · rfl

theorem moved_execute (moves : host.Moves moved) (refl : ∀ state, moved state state)
    (ins : Instruction Label) (c : Config σ) :
    moved c.host (m.execute host args ins c).host := by
  cases named : ins.opcode
  all_goals simp only [execute, named]
  case nop | ldnull | ldcI40 | ldcI41 | ret => exact refl c.host
  case ldarg0 | ldarg1 =>
    unfold pushArgument
    split <;> exact refl c.host
  case ldcI4 =>
    unfold pushConstant
    split <;> exact refl c.host
  case ldsfld =>
    rw [host_pushAnswer]
    exact moves.loadStatic _ c.host
  case ldfld =>
    split
    · exact refl c.host
    · rw [host_pushAnswer]
      exact moves.loadField _ _ c.host
  case stfld =>
    split
    · rename_i value object stack _
      have kept := moves.storeField object ins.operand.text value c.host
      split
      all_goals
        rename_i answer
        rw [answer] at kept
        exact kept
    · exact refl c.host
  case call | callvirt =>
    have kept := moves.call ins.operand.text c.stack c.host
    split
    all_goals
      rename_i answer
      rw [answer] at kept
      exact kept
  case pop | dup => split <;> exact refl c.host
  case br | brS =>
    rw [host_jump]
    exact refl c.host
  case brfalse | brfalseS | brtrue | brtrueS =>
    rw [host_branchIf]
    exact refl c.host

/-- A run leaves its host where a chain of requests can take it. -/
theorem moved_runFrom (moves : host.Moves moved) (refl : ∀ state, moved state state)
    (trans : ∀ {first second third}, moved first second → moved second third → moved first third)
    (taken allowed : Nat) (c : Config σ) :
    moved c.host (m.runFrom host args taken allowed c).2 := by
  induction allowed generalizing taken c with
  | zero =>
    cases fetched : m.code[c.pc]? with
    | none =>
      rw [runFrom_of_none fetched]
      exact refl c.host
    | some ins =>
      rw [runFrom_zero fetched]
      exact refl c.host
  | succ allowed ih =>
    cases fetched : m.code[c.pc]? with
    | none =>
      rw [runFrom_of_none fetched]
      exact refl c.host
    | some ins =>
      have step : moved c.host (m.execute host args ins c).host := moved_execute moves refl ins c
      cases executed : m.execute host args ins c with
      | next d =>
        rw [runFrom_of_next fetched executed]
        rw [executed] at step
        exact trans step (ih (taken + 1) d)
      | returned value state =>
        rw [runFrom_of_returned fetched executed]
        rw [executed] at step
        exact step
      | failed fault state =>
        rw [runFrom_of_failed fetched executed]
        rw [executed] at step
        exact step

end Machine

end SpawnGuard
