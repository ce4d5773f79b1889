/-!
A compressor of bytes. How it packs them is its own affair, and unpacking can fail with a message;
all that is relied on is that bytes come back as they were.
-/
namespace SpawnGuard

class Compressor where
  pack : ByteArray → ByteArray
  unpack : ByteArray → Except String ByteArray

class LawfulCompressor [Compressor] : Prop where
  unpack_pack : ∀ bytes, Compressor.unpack (Compressor.pack bytes) = .ok bytes

end SpawnGuard
