import SpawnGuard.Machine.Value

/-!
The host of a run: it answers method calls and accesses to fields, and keeps a state of its own.
A stack is a list with its top in front.
-/
namespace SpawnGuard

abbrev Stack := List Value

namespace Stack

/-- Takes values off the stack; they come in the order in which they were pushed. -/
def popMany (n : Nat) (stack : Stack) : Except Fault (List Value × Stack) :=
  if stack.length < n then .error (.host (.shortStack n stack.length))
  else .ok ((stack.take n).reverse, stack.drop n)

end Stack

/-- What a host does at each request, with `σ` for its state. Its state may change also where it
refuses. A call takes its arguments from the stack and leaves its result there, if any. -/
structure Host (σ : Type) where
  call : String → Stack → σ → Except Fault Stack × σ
  loadStatic : String → σ → Except Fault Value × σ
  loadField : Value → String → σ → Except Fault Value × σ
  storeField : Value → String → Value → σ → Except Fault Unit × σ

end SpawnGuard
