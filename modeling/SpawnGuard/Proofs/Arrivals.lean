import Mathlib.Data.List.Basic
import SpawnGuard.Machine.Run

/-!
Runs seen one instruction at a time. A run arrives at one position after the other, each time by
a taken branch or without one; where it arrives after so many instructions does not depend on
the number of steps it is allowed.
-/
namespace SpawnGuard

variable {σ : Type}

def Instruction.branches (ins : Instruction Label) (stack : Stack) : Bool :=
  match ins.opcode with
  | .br | .brS => true
  | .brfalse | .brfalseS => stack.head?.any fun condition => !condition.isTrue
  | .brtrue | .brtrueS => stack.head?.any fun condition => condition.isTrue
  | _ => false

/-- A run between two instructions, and whether a taken branch led there. -/
structure Arrival (σ : Type) where
  config : Config σ
  jumped : Bool
  deriving DecidableEq

namespace Arrival

def entry (state : σ) : Arrival σ := ⟨⟨0, [], state⟩, false⟩

/-- Whether a run arrives at a position as the entry of the method or from the instruction in
front of it, without a branch. -/
def enters (site : Nat) (a : Arrival σ) : Bool := a.config.pc = site && !a.jumped

theorem enters_iff {site : Nat} {a : Arrival σ} :
    a.enters site = true ↔ a.config.pc = site ∧ a.jumped = false := by
  simp [enters]

end Arrival

namespace Machine

variable (m : Machine) (host : Host σ) (args : List Value)

def advance (a : Arrival σ) : Option (Arrival σ) :=
  match m.code[a.config.pc]? with
  | none => none
  | some ins =>
    match m.execute host args ins a.config with
    | .next c => some ⟨c, ins.branches a.config.stack⟩
    | .returned _ _ | .failed _ _ => none

/-- The arrival after so many more instructions, if the run goes on for so long. -/
def after : Nat → Arrival σ → Option (Arrival σ)
  | 0, a => some a
  | s + 1, a => (m.advance host args a).bind (after s)

/-- How often a run under a limit arrives at a position without a branch. -/
def entries (site limit : Nat) (a : Arrival σ) : Nat :=
  (List.range (limit + 1)).countP fun s => (m.after host args s a).any (·.enters site)

/-- Whether a run under a limit executes the instruction at a position. -/
def Executes (limit position : Nat) (a : Arrival σ) : Prop :=
  position < m.code.length ∧ ∃ s < limit, ∃ b ∈ m.after host args s a, b.config.pc = position

/-- The first entry of a position, after so many instructions. -/
def FirstEntry (site s : Nat) (a b : Arrival σ) : Prop :=
  m.after host args s a = some b ∧ b.enters site = true ∧
    ∀ t < s, ∀ c ∈ m.after host args t a, c.enters site = false

instance [DecidableEq σ] (site s : Nat) (a b : Arrival σ) :
    Decidable (m.FirstEntry host args site s a b) :=
  inferInstanceAs (Decidable (_ ∧ _ ∧ ∀ t < s, ∀ c ∈ m.after host args t a, _))

variable {m host args}

theorem advance_eq_some {a b : Arrival σ} (step : m.advance host args a = some b) :
    ∃ ins, m.code[a.config.pc]? = some ins ∧
      m.execute host args ins a.config = .next b.config ∧
      b.jumped = ins.branches a.config.stack := by
  unfold advance at step
  split at step
  · cases step
  · rename_i ins fetched
    split at step
    · rename_i c executed
      cases step
      exact ⟨ins, fetched, executed, rfl⟩
    · cases step
    · cases step

theorem advance_of_next {a : Arrival σ} {ins : Instruction Label} {c : Config σ}
    (fetched : m.code[a.config.pc]? = some ins)
    (executed : m.execute host args ins a.config = .next c) :
    m.advance host args a = some ⟨c, ins.branches a.config.stack⟩ := by
  simp [advance, fetched, executed]

theorem after_succ {s : Nat} {a b : Arrival σ} (step : m.advance host args a = some b) :
    m.after host args (s + 1) a = m.after host args s b := by
  simp [after, step]

theorem after_add (s t : Nat) (a : Arrival σ) :
    m.after host args (s + t) a = (m.after host args s a).bind (m.after host args t) := by
  induction s generalizing a with
  | zero => simp [after]
  | succ s ih =>
    rw [Nat.add_right_comm]
    simp only [after]
    cases m.advance host args a with
    | none => rfl
    | some b => exact ih b

theorem entries_succ (m : Machine) (host : Host σ) (args : List Value) (site limit : Nat)
    (a : Arrival σ) :
    m.entries host args site (limit + 1) a =
      (if a.enters site then 1 else 0) +
        match m.advance host args a with
        | none => 0
        | some b => m.entries host args site limit b := by
  unfold entries
  rw [List.range_succ_eq_map, List.countP_cons, List.countP_map, Nat.add_comm]
  congr 1
  cases step : m.advance host args a with
  | none => simp [Function.comp_def, after, step]
  | some b => simp only [Function.comp_def, after_succ step]

theorem entries_le (m : Machine) (host : Host σ) (args : List Value) (site limit : Nat)
    (a : Arrival σ) : m.entries host args site limit a ≤ limit + 1 := by
  have most := List.countP_le_length (p := fun s => (m.after host args s a).any (·.enters site))
    (l := List.range (limit + 1))
  rwa [List.length_range] at most

theorem runFrom_of_none {c : Config σ} {taken allowed : Nat} (left : m.code[c.pc]? = none) :
    m.runFrom host args taken allowed c = (.error .fellOffEnd, c.host) := by
  rw [runFrom.eq_def]
  simp [left]

theorem runFrom_of_next {ins : Instruction Label} {c d : Config σ} {taken allowed : Nat}
    (fetched : m.code[c.pc]? = some ins) (executed : m.execute host args ins c = .next d) :
    m.runFrom host args taken (allowed + 1) c = m.runFrom host args (taken + 1) allowed d := by
  rw [runFrom.eq_def]
  simp [fetched, executed]

theorem runFrom_zero {ins : Instruction Label} {c : Config σ} {taken : Nat}
    (fetched : m.code[c.pc]? = some ins) :
    m.runFrom host args taken 0 c = (.error (.stepLimit taken), c.host) := by
  rw [runFrom.eq_def]
  simp [fetched]

theorem runFrom_of_returned {ins : Instruction Label} {c : Config σ} {value : Option Value}
    {state : σ} {taken allowed : Nat} (fetched : m.code[c.pc]? = some ins)
    (executed : m.execute host args ins c = .returned value state) :
    m.runFrom host args taken (allowed + 1) c = (.ok ⟨value, c.pc, taken + 1⟩, state) := by
  rw [runFrom.eq_def]
  simp [fetched, executed]

theorem runFrom_of_failed {ins : Instruction Label} {c : Config σ} {fault : Fault} {state : σ}
    {taken allowed : Nat} (fetched : m.code[c.pc]? = some ins)
    (executed : m.execute host args ins c = .failed fault state) :
    m.runFrom host args taken (allowed + 1) c = (.error fault, state) := by
  rw [runFrom.eq_def]
  simp [fetched, executed]

theorem runFrom_advance {a b : Arrival σ} {taken allowed : Nat}
    (step : m.advance host args a = some b) :
    m.runFrom host args taken (allowed + 1) a.config =
      m.runFrom host args (taken + 1) allowed b.config := by
  obtain ⟨ins, fetched, executed, _⟩ := advance_eq_some step
  exact runFrom_of_next fetched executed

theorem advance_of_call {a : Arrival σ} {method : String} {labels : List Label} {stack : Stack}
    {state : σ} (fetched : m.code[a.config.pc]? = some ⟨.call, .method method, labels⟩)
    (answer : host.call method a.config.stack a.config.host = (.ok stack, state)) :
    m.advance host args a = some ⟨⟨a.config.pc + 1, stack, state⟩, false⟩ := by
  have executed : m.execute host args ⟨.call, .method method, labels⟩ a.config =
      .next ⟨a.config.pc + 1, stack, state⟩ := by
    simp [execute, Operand.text, answer]
  exact advance_of_next fetched executed

theorem firstEntry_zero {site : Nat} {a : Arrival σ} (entered : a.enters site = true) :
    m.FirstEntry host args site 0 a a := by
  refine ⟨rfl, entered, ?_⟩
  intro t before
  exact absurd before (Nat.not_lt_zero t)

theorem firstEntry_succ {site s : Nat} {a b c : Arrival σ} (outside : a.enters site = false)
    (step : m.advance host args a = some b) (later : m.FirstEntry host args site s b c) :
    m.FirstEntry host args site (s + 1) a c := by
  obtain ⟨reached, entered, before⟩ := later
  refine ⟨(after_succ step).trans reached, entered, ?_⟩
  intro t bound d there
  cases t with
  | zero =>
    cases there
    exact outside
  | succ t =>
    rw [after_succ step] at there
    exact before t (by omega) d there

theorem after_snoc {s : Nat} {a b : Arrival σ}
    (reached : m.after host args (s + 1) a = some b) :
    ∃ c, m.after host args s a = some c ∧ m.advance host args c = some b := by
  rw [after_add] at reached
  obtain ⟨c, before, last⟩ := Option.bind_eq_some_iff.mp reached
  refine ⟨c, before, ?_⟩
  simpa [after] using last

theorem runFrom_after {s : Nat} {a b : Arrival σ} (reached : m.after host args s a = some b)
    (taken allowed : Nat) :
    m.runFrom host args taken (s + allowed) a.config =
      m.runFrom host args (taken + s) allowed b.config := by
  induction s generalizing a taken with
  | zero =>
    cases reached
    rw [Nat.zero_add, Nat.add_zero]
  | succ s ih =>
    obtain ⟨c, step, rest⟩ := Option.bind_eq_some_iff.mp reached
    rw [Nat.add_right_comm, runFrom_advance step, ih rest]
    congr 1
    omega

private theorem jump_eq_next {ins : Instruction Label} {pc : Nat} {stack : Stack} {state : σ}
    {d : Config σ} (executed : m.jump ins pc stack state = .next d) :
    m.target pc ins.branchTarget? = .ok d.pc := by
  unfold jump at executed
  split at executed
  · rename_i found
    cases executed
    exact found
  · cases executed

private theorem branchIf_eq_next {ins : Instruction Label} {wanted : Bool} {c d : Config σ}
    (executed : m.branchIf wanted ins c = .next d) :
    if c.stack.head?.any fun condition => condition.isTrue == wanted
      then m.target c.pc ins.branchTarget? = .ok d.pc
      else d.pc = c.pc + 1 := by
  obtain ⟨pc, _ | ⟨condition, stack⟩, state⟩ := c
  · cases executed
  · by_cases taken : condition.isTrue = wanted
    · simp only [branchIf, taken, if_true] at executed
      simpa [taken] using jump_eq_next executed
    · simp only [branchIf, taken, if_false] at executed
      cases executed
      simp [taken]

private theorem pushAnswer_eq_next {pc : Nat} {stack : Stack} {answer : Except Fault Value × σ}
    {d : Config σ} (executed : pushAnswer pc stack answer = .next d) : d.pc = pc + 1 := by
  obtain ⟨_ | value, state⟩ := answer
  · cases executed
  · cases executed
    rfl

/-- An instruction that does not end the run leads to its branch target or to the next place. -/
theorem pc_of_execute {ins : Instruction Label} {c d : Config σ}
    (executed : m.execute host args ins c = .next d) :
    if ins.branches c.stack then m.target c.pc ins.branchTarget? = .ok d.pc
      else d.pc = c.pc + 1 := by
  cases named : ins.opcode
  all_goals simp only [execute, Instruction.branches, named] at executed ⊢
  case br | brS => simpa using jump_eq_next executed
  case brfalse | brfalseS => simpa using branchIf_eq_next executed
  case brtrue | brtrueS => simpa using branchIf_eq_next executed
  case ldsfld => simpa using pushAnswer_eq_next executed
  case ldfld =>
    split at executed
    · cases executed
    · simpa using pushAnswer_eq_next executed
  case ret => cases executed
  case nop | ldnull | ldcI40 | ldcI41 =>
    cases executed
    simp
  case ldarg0 | ldarg1 =>
    unfold pushArgument at executed
    split at executed <;> cases executed
    simp
  case ldcI4 =>
    unfold pushConstant at executed
    split at executed <;> cases executed
    simp
  case stfld =>
    split at executed
    · split at executed <;> cases executed
      simp
    · cases executed
  case call | callvirt =>
    split at executed <;> cases executed
    simp
  case pop | dup =>
    split at executed <;> cases executed
    simp

end Machine

end SpawnGuard
