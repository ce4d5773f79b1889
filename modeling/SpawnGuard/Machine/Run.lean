import SpawnGuard.Code.Body
import SpawnGuard.Machine.Host

/-!
Running a method body. A step executes one instruction; a run takes steps until the method
returns, fails, or has taken as many steps as it may.
-/
namespace SpawnGuard

structure Exit where
  returned : Option Value
  index : Nat
  steps : Nat
  deriving DecidableEq, Repr

structure Config (σ : Type) where
  pc : Nat
  stack : Stack
  host : σ
  deriving DecidableEq, Repr

inductive Step (σ : Type) where
  | next (config : Config σ)
  | returned (value : Option Value) (host : σ)
  | failed (fault : Fault) (host : σ)
  deriving DecidableEq, Repr

structure Machine where
  code : Code Label
  labels : List (Label × Nat)
  deriving DecidableEq, Repr

namespace Machine

def defaultStepLimit : Nat := 10000

def ofBody (body : Body) : Machine := ⟨body.code, body.labelIndex⟩

def target (m : Machine) (pc : Nat) (label? : Option Label) : Except Fault Nat :=
  match label? with
  | none => .error (.noTarget pc)
  | some label =>
    match m.labels.lookup label with
    | none => .error (.unresolvedLabel pc label)
    | some index => .ok index

variable {σ : Type}

def jump (m : Machine) (ins : Instruction Label) (pc : Nat) (stack : Stack) (state : σ) : Step σ :=
  match m.target pc ins.branchTarget? with
  | .ok index => .next ⟨index, stack, state⟩
  | .error fault => .failed fault state

/-- A conditional branch, taken if the top of the stack has the given truth. -/
def branchIf (m : Machine) (wanted : Bool) (ins : Instruction Label) (c : Config σ) : Step σ :=
  match c.stack with
  | [] => .failed (.stackUnderflow c.pc ins.opcode) c.host
  | condition :: stack =>
    if condition.isTrue = wanted then m.jump ins c.pc stack c.host
    else .next ⟨c.pc + 1, stack, c.host⟩

def push (c : Config σ) (value : Value) : Step σ := .next ⟨c.pc + 1, value :: c.stack, c.host⟩

def pushArgument (args : List Value) (number : Nat) (c : Config σ) : Step σ :=
  match args[number]? with
  | some value => push c value
  | none => .failed (.missingArgument number) c.host

def pushConstant (operand : Operand Label) (c : Config σ) : Step σ :=
  match operand with
  | .int value => push c (.int value)
  | _ => .failed (.noConstant c.pc) c.host

def pushAnswer (pc : Nat) (stack : Stack) : Except Fault Value × σ → Step σ
  | (.ok value, state) => .next ⟨pc + 1, value :: stack, state⟩
  | (.error fault, state) => .failed fault state

def execute (m : Machine) (host : Host σ) (args : List Value) (ins : Instruction Label)
    (c : Config σ) : Step σ :=
  let underflow : Step σ := .failed (.stackUnderflow c.pc ins.opcode) c.host
  match ins.opcode with
  | .nop => .next ⟨c.pc + 1, c.stack, c.host⟩
  | .ldarg0 => pushArgument args 0 c
  | .ldarg1 => pushArgument args 1 c
  | .ldnull => push c .null
  | .ldcI4 => pushConstant ins.operand c
  | .ldcI40 => push c (.int 0)
  | .ldcI41 => push c (.int 1)
  | .ldsfld => pushAnswer c.pc c.stack (host.loadStatic ins.operand.text c.host)
  | .ldfld =>
    match c.stack with
    | [] => underflow
    | object :: stack => pushAnswer c.pc stack (host.loadField object ins.operand.text c.host)
  | .stfld =>
    match c.stack with
    | value :: object :: stack =>
      match host.storeField object ins.operand.text value c.host with
      | (.ok (), state) => .next ⟨c.pc + 1, stack, state⟩
      | (.error fault, state) => .failed fault state
    | _ => underflow
  | .call | .callvirt =>
    match host.call ins.operand.text c.stack c.host with
    | (.ok stack, state) => .next ⟨c.pc + 1, stack, state⟩
    | (.error fault, state) => .failed fault state
  | .pop =>
    match c.stack with
    | [] => underflow
    | _ :: stack => .next ⟨c.pc + 1, stack, c.host⟩
  | .dup =>
    match c.stack with
    | [] => underflow
    | top :: _ => push c top
  | .ret => .returned c.stack.head? c.host
  | .br | .brS => m.jump ins c.pc c.stack c.host
  | .brfalse | .brfalseS => m.branchIf false ins c
  | .brtrue | .brtrueS => m.branchIf true ins c

/-- Runs on from a configuration with so many steps taken and so many still allowed. Leaving the
code is noticed before the limit is. -/
def runFrom (m : Machine) (host : Host σ) (args : List Value) (taken : Nat) :
    Nat → Config σ → Except Fault Exit × σ
  | allowed, c =>
    match m.code[c.pc]? with
    | none => (.error .fellOffEnd, c.host)
    | some ins =>
      match allowed with
      | 0 => (.error (.stepLimit taken), c.host)
      | allowed + 1 =>
        match m.execute host args ins c with
        | .next c => runFrom m host args (taken + 1) allowed c
        | .returned value state => (.ok ⟨value, c.pc, taken + 1⟩, state)
        | .failed fault state => (.error fault, state)

def run (m : Machine) (host : Host σ) (args : List Value) (limit : Nat) (state : σ) :
    Except Fault Exit × σ :=
  m.runFrom host args 0 limit ⟨0, [], state⟩

end Machine

end SpawnGuard
