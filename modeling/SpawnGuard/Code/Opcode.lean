/-!
The operations of a spawn method and the kind of operand each one takes. A mnemonic is read
without regard to the case of its letters.
-/
namespace SpawnGuard

inductive OperandKind where
  | none
  | int
  | field
  | method
  | label
  deriving DecidableEq, Repr

inductive Opcode where
  | nop
  | ldarg0
  | ldarg1
  | ldnull
  | ldcI4
  | ldcI40
  | ldcI41
  | ldsfld
  | ldfld
  | stfld
  | call
  | callvirt
  | pop
  | dup
  | ret
  | br
  | brS
  | brfalse
  | brfalseS
  | brtrue
  | brtrueS
  deriving DecidableEq, Repr

namespace Opcode

def all : List Opcode :=
  [nop, ldarg0, ldarg1, ldnull, ldcI4, ldcI40, ldcI41, ldsfld, ldfld, stfld, call, callvirt,
    pop, dup, ret, br, brS, brfalse, brfalseS, brtrue, brtrueS]

def mnemonic : Opcode → String
  | nop => "nop"
  | ldarg0 => "ldarg.0"
  | ldarg1 => "ldarg.1"
  | ldnull => "ldnull"
  | ldcI4 => "ldc.i4"
  | ldcI40 => "ldc.i4.0"
  | ldcI41 => "ldc.i4.1"
  | ldsfld => "ldsfld"
  | ldfld => "ldfld"
  | stfld => "stfld"
  | call => "call"
  | callvirt => "callvirt"
  | pop => "pop"
  | dup => "dup"
  | ret => "ret"
  | br => "br"
  | brS => "br.s"
  | brfalse => "brfalse"
  | brfalseS => "brfalse.s"
  | brtrue => "brtrue"
  | brtrueS => "brtrue.s"

def kind : Opcode → OperandKind
  | ldcI4 => .int
  | ldsfld | ldfld | stfld => .field
  | call | callvirt => .method
  | br | brS | brfalse | brfalseS | brtrue | brtrueS => .label
  | nop | ldarg0 | ldarg1 | ldnull | ldcI40 | ldcI41 | pop | dup | ret => .none

def isBranch (op : Opcode) : Bool := op.kind = .label

def ofMnemonic? (word : List Char) : Option Opcode :=
  all.find? fun op => op.mnemonic.toList == word.map Char.toLower

theorem mem_all (op : Opcode) : op ∈ all := by
  cases op <;> decide

end Opcode

end SpawnGuard
