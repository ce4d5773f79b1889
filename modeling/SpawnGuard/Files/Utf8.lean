/-!
Reading bytes as UTF-8. Where that fails, the fault says how many bytes are sound before it, and
how long the unsound sequence is unless the bytes end within it.
-/
namespace SpawnGuard

structure Utf8Fault where
  soundUpTo : Nat
  length? : Option Nat
  deriving DecidableEq, Repr

namespace Utf8Fault

def message (fault : Utf8Fault) : String :=
  match fault.length? with
  | some length => s!"invalid utf-8 sequence of {length} bytes from index {fault.soundUpTo}"
  | none => s!"incomplete utf-8 byte sequence from index {fault.soundUpTo}"

end Utf8Fault

namespace Utf8

/-- The least and the greatest second byte that may follow a first byte, and how many bytes
come after the second; nothing for a byte that starts no sequence of several bytes. -/
def following? (first : UInt8) : Option (UInt8 × UInt8 × Nat) :=
  if 0xC2 ≤ first ∧ first ≤ 0xDF then some (0x80, 0xBF, 0)
  else if first = 0xE0 then some (0xA0, 0xBF, 1)
  else if first = 0xED then some (0x80, 0x9F, 1)
  else if 0xE1 ≤ first ∧ first ≤ 0xEF then some (0x80, 0xBF, 1)
  else if first = 0xF0 then some (0x90, 0xBF, 2)
  else if 0xF1 ≤ first ∧ first ≤ 0xF3 then some (0x80, 0xBF, 2)
  else if first = 0xF4 then some (0x80, 0x8F, 2)
  else none

/-- Passes the third and fourth byte of a sequence of which `length` bytes are read. The answer is
the length at the fault, or the rest. -/
def passTail (length : Nat) : Nat → List UInt8 → Except (Option Nat) (Nat × List UInt8)
  | 0, rest => .ok (length, rest)
  | _ + 1, [] => .error none
  | owed + 1, byte :: rest =>
    if 0x80 ≤ byte ∧ byte ≤ 0xBF then passTail (length + 1) owed rest else .error (some length)

def passChar (first : UInt8) (rest : List UInt8) : Except (Option Nat) (Nat × List UInt8) :=
  if first < 0x80 then .ok (1, rest)
  else
    match following? first, rest with
    | none, _ => .error (some 1)
    | some _, [] => .error none
    | some (low, high, owed), second :: rest =>
      if low ≤ second ∧ second ≤ high then passTail 2 owed rest else .error (some 1)

def fault? (fuel : Nat) (passed : Nat) (bytes : List UInt8) : Option Utf8Fault :=
  match fuel, bytes with
  | _, [] => none
  | 0, _ => none
  | fuel + 1, first :: rest =>
    match passChar first rest with
    | .error length? => some ⟨passed, length?⟩
    | .ok (length, rest) => fault? fuel (passed + length) rest

def decode (bytes : ByteArray) : Except Utf8Fault String :=
  match String.fromUTF8? bytes with
  | some text => .ok text
  | none => .error ((fault? bytes.size 0 bytes.toList).getD ⟨bytes.size, none⟩)

end Utf8

end SpawnGuard
