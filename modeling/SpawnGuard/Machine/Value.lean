import SpawnGuard.Code.Instruction

/-!
Values on the operand stack, and the ways a run can fail.
-/
namespace SpawnGuard

inductive Value where
  | int (n : Int32)
  | object (name : String)
  | null
  deriving DecidableEq, Repr

namespace Value

def ofBool (b : Bool) : Value := if b then int 1 else int 0

def isTrue : Value → Bool
  | int n => n ≠ 0
  | object _ => true
  | null => false

end Value

inductive HostFault where
  | shortStack (needed available : Nat)
  | badEventHash (given : Option Value)
  | unknownMethod (signature : String)
  | unknownField (field : String)
  | other (text : String)
  deriving DecidableEq, Repr

inductive Fault where
  | stackUnderflow (index : Nat) (opcode : Opcode)
  | unresolvedLabel (index : Nat) (label : Label)
  | missingArgument (number : Nat)
  | fellOffEnd
  | stepLimit (limit : Nat)
  | noConstant (index : Nat)
  | noTarget (index : Nat)
  | host (fault : HostFault)
  deriving DecidableEq, Repr

end SpawnGuard
