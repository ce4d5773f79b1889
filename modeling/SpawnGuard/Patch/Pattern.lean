import SpawnGuard.Code.Body

/-!
Patterns: tests of consecutive instructions, by operation and by the text of the operand. The
labels on an instruction never matter.
-/
namespace SpawnGuard

inductive OperandTest where
  | any
  | equals (text : String)
  | startsWith (text : String)
  | endsWith (text : String)
  deriving DecidableEq, Repr

namespace OperandTest

def accepts (test : OperandTest) (text? : Option String) : Bool :=
  match test, text? with
  | any, _ => true
  | _, none => false
  | equals wanted, some text => text = wanted
  | startsWith wanted, some text => wanted.toList.isPrefixOf text.toList
  | endsWith wanted, some text => wanted.toList.isSuffixOf text.toList

end OperandTest

structure InstructionTest where
  opcode : Opcode
  operand : OperandTest := .any
  deriving DecidableEq, Repr

namespace InstructionTest

def accepts (test : InstructionTest) (ins : Instruction Label) : Bool :=
  ins.opcode = test.opcode && test.operand.accepts ins.operand.text?

end InstructionTest

abbrev Pattern := List InstructionTest

namespace Pattern

/-- `this.Subscribe(event, delegate); return`, the delegate known by how its field ends and the
method by how its signature starts. -/
def subscribeTail (event : Int32) (field method : String) : Pattern :=
  [⟨.ldarg0, .any⟩, ⟨.ldcI4, .equals (toString event.toInt)⟩, ⟨.ldsfld, .endsWith field⟩,
    ⟨.call, .startsWith method⟩, ⟨.pop, .any⟩, ⟨.ret, .any⟩]

def matchesHead : Pattern → Code Label → Bool
  | [], _ => true
  | _ :: _, [] => false
  | test :: tests, ins :: rest => test.accepts ins && matchesHead tests rest

def matchesAt (pattern : Pattern) (code : Code Label) (index : Nat) : Bool :=
  index ≤ code.length && matchesHead pattern (code.drop index)

/-- The first position at which the pattern matches; the empty pattern is nowhere found. -/
def find? (pattern : Pattern) (code : Code Label) : Option Nat :=
  if pattern.isEmpty then none
  else (List.range code.length).find? fun index => matchesAt pattern code index

end Pattern

end SpawnGuard
