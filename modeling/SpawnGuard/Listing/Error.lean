import SpawnGuard.Listing.Literal

/-!
What is wrong with a listing, and on which line.
-/
namespace SpawnGuard.Listing

inductive Cause where
  | unknownOpcode (word : String)
  | wrongOperandCount (opcode : String) (expected got : Nat)
  | parseInt (word : String) (fault : NumberFault)
  | unterminatedString
  | undefinedLabel (name : String)
  | duplicateLabel (name : String)
  | danglingLabel (name : String)
  | labelsExhausted
  deriving DecidableEq, Repr

structure Error where
  line : Nat
  cause : Cause
  deriving DecidableEq, Repr

namespace Error

def message (error : Error) : String :=
  let line := error.line
  match error.cause with
  | .unknownOpcode word => s!"unknown opcode '{word}' on line {line}"
  | .wrongOperandCount opcode expected got =>
    s!"wrong operand count for {opcode} on line {line}: expected {expected}, got {got}"
  | .parseInt word _ => s!"failed to parse integer '{word}' on line {line}"
  | .unterminatedString => s!"unterminated string on line {line}"
  | .undefinedLabel name => s!"label '{name}' used on line {line} is never defined"
  | .duplicateLabel name => s!"label '{name}' on line {line} is already defined"
  | .danglingLabel name => s!"label '{name}' on line {line} is not followed by an instruction"
  | .labelsExhausted => "attempt to add with overflow"

end Error

end SpawnGuard.Listing
