import SpawnGuard.Machine.Value
import SpawnGuard.Text.Quoted

/-!
The wording of faults.
-/
namespace SpawnGuard

namespace Value

def show? : Option Value → String
  | none => "None"
  | some null => "Some(Null)"
  | some (int n) => s!"Some(Int({n.toInt}))"
  | some (object name) => s!"Some(Object({Text.quote name}))"

end Value

namespace HostFault

def message : HostFault → String
  | shortStack needed available => s!"call needs {needed} stack values, {available} available"
  | badEventHash given => s!"bad event hash {Value.show? given}"
  | unknownMethod signature => s!"unknown method {signature}"
  | unknownField field => s!"unknown field {field}"
  | other text => text

end HostFault

namespace Fault

def message : Fault → String
  | stackUnderflow index opcode => s!"stack underflow at instruction {index} ({opcode.mnemonic})"
  | unresolvedLabel index label =>
    s!"instruction {index} branches to {label.text}, which is not attached to any instruction"
  | missingArgument number => s!"argument {number} is not available"
  | fellOffEnd => "execution ran past the last instruction without returning"
  | stepLimit limit => s!"step limit of {limit} reached"
  | noConstant index => s!"runtime error: ldc.i4 at {index} has no constant"
  | noTarget index => s!"runtime error: branch at {index} has no label"
  | host fault => s!"runtime error: {fault.message}"

end Fault

end SpawnGuard
