import SpawnGuard.Files.Compressor
import SpawnGuard.Files.Crc32
import SpawnGuard.Files.Inflate

/-!
A compressor: gzip files. Only the first member is read, and writing stores the bytes as they are.
-/
namespace SpawnGuard.Gzip

inductive Fault where
  | endOfFile
  | badHeader
  | longField
  | incomplete
  | corruptStream
  | badChecksum
  deriving DecidableEq, Repr

namespace Fault

def message : Fault → String
  | endOfFile => "unexpected end of file"
  | badHeader => "invalid gzip header"
  | longField => "gzip header field too long"
  | incomplete => "incomplete deflate stream"
  | corruptStream => "corrupt deflate stream"
  | badChecksum => "corrupt gzip stream does not have a matching checksum"

def ofInflate : Inflate.Fault → Fault
  | .incomplete => incomplete
  | .corrupt => corruptStream

end Fault

def byte (bytes : ByteArray) (index : Nat) : Except Fault Nat :=
  match bytes[index]? with
  | some byte => .ok byte.toNat
  | none => .error .endOfFile

def word (bytes : ByteArray) (index : Nat) : Except Fault Nat := do
  let low ← byte bytes index
  let high ← byte bytes (index + 1)
  .ok (low + 256 * high)

def doubleWord (bytes : ByteArray) (index : Nat) : Except Fault Nat := do
  let low ← word bytes index
  let high ← word bytes (index + 2)
  .ok (low + 65536 * high)

def fieldLimit : Nat := 65535

/-- Passes a text of the header that ends in a zero byte; `room` is what it may still hold. -/
def passText (bytes : ByteArray) (index : Nat) : Nat → Except Fault Nat
  | 0 => do
    let last ← byte bytes index
    if last = 0 then .ok (index + 1) else .error .longField
  | room + 1 => do
    let next ← byte bytes index
    if next = 0 then .ok (index + 1) else passText bytes (index + 1) room

def passHeader (bytes : ByteArray) : Except Fault Nat := do
  let _ ← byte bytes 9
  let magic ← doubleWord bytes 0
  let flags := magic / 16777216
  let has (bit : Nat) : Bool := flags / bit % 2 = 1
  if magic % 16777216 ≠ 0x088B1F then .error .badHeader
  else if 32 ≤ flags then .error .badHeader
  else do
    let index ←
      if has 4 then do
        let length ← word bytes 10
        if length ≠ 0 then do
          let _ ← byte bytes (11 + length)
          .ok (12 + length)
        else .ok 12
      else .ok 10
    let index ← if has 8 then passText bytes index fieldLimit else .ok index
    let index ← if has 16 then passText bytes index fieldLimit else .ok index
    if has 2 then do
      let checksum ← word bytes index
      if checksum = (Crc32.ofBytes (bytes.extract 0 index)).toNat % 65536 then .ok (index + 2)
      else .error .badChecksum
    else .ok index

/-- The bytes of the first member of a gzip file. -/
def unpack (bytes : ByteArray) : Except Fault ByteArray := do
  let start ← passHeader bytes
  let (output, stop) ← (Inflate.unpack bytes start).mapError Fault.ofInflate
  let checksum ← doubleWord bytes stop
  let size ← doubleWord bytes (stop + 4)
  if checksum = (Crc32.ofBytes output).toNat ∧ size = output.size % 4294967296 then .ok output
  else .error .badChecksum

def fourBytes (n : Nat) : ByteArray :=
  ⟨#[n.toUInt8, (n / 256).toUInt8, (n / 65536).toUInt8, (n / 16777216).toUInt8]⟩

def header : ByteArray := ⟨#[0x1F, 0x8B, 8, 0, 0, 0, 0, 0, 0, 0xFF]⟩

def pack (bytes : ByteArray) : ByteArray :=
  header ++ Inflate.store bytes ++ fourBytes (Crc32.ofBytes bytes).toNat ++ fourBytes bytes.size

instance : Compressor where
  pack := pack
  unpack bytes := (unpack bytes).mapError Fault.message

end SpawnGuard.Gzip
