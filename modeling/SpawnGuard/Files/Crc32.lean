/-!
The checksum of gzip: a cyclic redundancy check of 32 bits, least significant bit first.
-/
namespace SpawnGuard.Crc32

/-- The polynomial, its bits in reverse. -/
def polynomial : UInt32 := 0xEDB88320

def shift : Nat → UInt32 → UInt32
  | 0, state => state
  | bits + 1, state =>
    shift bits (if state &&& 1 = 1 then (state >>> 1) ^^^ polynomial else state >>> 1)

def addByte (state : UInt32) (byte : UInt8) : UInt32 := shift 8 (state ^^^ byte.toUInt32)

def ofBytes (bytes : ByteArray) : UInt32 :=
  bytes.foldl addByte 0xFFFFFFFF ^^^ 0xFFFFFFFF

end SpawnGuard.Crc32
