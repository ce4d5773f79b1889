import Mathlib.Algebra.GroupWithZero.Nat
import SpawnGuard.Files.Gzip
import SpawnGuard.Proofs.Answers

/-!
Gzip files that store their bytes as they are: what is packed is what is unpacked.
-/
namespace SpawnGuard

namespace Inflate

section Bytes

variable {front back : ByteArray} {index : Nat}

theorem getElem?_eq (bytes : ByteArray) (index : Nat) :
    bytes[index]? = bytes.data.toList[index]? := by
  by_cases inside : index < bytes.size
  · rw [getElem?_pos bytes index inside]
    exact (List.getElem?_eq_getElem inside).symm
  · rw [getElem?_neg bytes index inside]
    exact (List.getElem?_eq_none (Nat.not_lt.mp inside)).symm

theorem getElem?_append_right (front back : ByteArray) (index : Nat) :
    (front ++ back)[front.size + index]? = back[index]? := by
  rw [getElem?_eq, getElem?_eq, ByteArray.toList_data_append]
  exact (List.getElem?_append_right (Nat.le_add_right _ _)).trans
    (congrArg (back.data.toList[·]?) (Nat.add_sub_cancel_left _ _))

theorem getElem?_append_left (inside : index < front.size) :
    (front ++ back)[index]? = front[index]? := by
  rw [getElem?_eq, getElem?_eq, ByteArray.toList_data_append]
  exact List.getElem?_append_left inside

end Bytes

section Bits

variable {bytes : ByteArray} {place : Nat} {byte : UInt8}

theorem next_eq {passed : Nat} (found : bytes[passed / 8]? = some byte) :
    Source.next ⟨bytes, passed⟩ = .ok (byte.toNat / 2 ^ (passed % 8) % 2, ⟨bytes, passed + 1⟩) := by
  unfold Source.next
  rw [found, ← Nat.shiftRight_eq_div_pow]

/-- The last bits of a byte as a number. -/
theorem number_bits (found : bytes[place]? = some byte) (bits offset : Nat)
    (whole : offset + bits = 8) :
    Source.number ⟨bytes, 8 * place + offset⟩ bits =
      .ok (byte.toNat / 2 ^ offset, ⟨bytes, 8 * place + 8⟩) := by
  induction bits generalizing offset with
  | zero =>
    have small := byte.toNat_lt
    cases whole
    rw [Nat.div_eq_of_lt small]
    rfl
  | succ bits ih =>
    have here : (8 * place + offset) / 8 = place := by omega
    have rest := ih (offset + 1) (by omega)
    rw [Source.number, next_eq (by rw [here]; exact found)]
    show (Source.number ⟨bytes, 8 * place + (offset + 1)⟩ bits >>= _) = _
    rw [rest]
    show Except.ok (_ + 2 * _, _) = _
    have low : (8 * place + offset) % 8 = offset := by omega
    rw [low, Nat.pow_succ, ← Nat.div_div_eq_div_mul, Nat.mod_add_div]

theorem number_add {source between last : Source} {bits more low high : Nat}
    (first : source.number bits = .ok (low, between))
    (second : between.number more = .ok (high, last)) :
    source.number (bits + more) = .ok (low + 2 ^ bits * high, last) := by
  induction bits generalizing source low with
  | zero =>
    cases first
    rw [Nat.zero_add, second, Nat.pow_zero, Nat.one_mul, Nat.zero_add]
  | succ bits ih =>
    obtain ⟨⟨bit, behind⟩, read, first⟩ := bind_eq_ok first
    obtain ⟨⟨rest, after⟩, numbered, first⟩ := bind_eq_ok first
    cases first
    rw [Nat.succ_add, Source.number, read]
    show (behind.number (bits + more) >>= _) = _
    rw [ih numbered]
    show Except.ok (bit + 2 * (rest + 2 ^ bits * high), last) = _
    rw [Nat.mul_add, ← Nat.mul_assoc, ← Nat.add_assoc, Nat.pow_succ']

theorem toNat_toUInt8 (n : Nat) : n.toUInt8.toNat = n % 256 := UInt8.toNat_ofNat'

/-- Two bytes are read for the number that they hold, the low one first. -/
theorem number_word {n : Nat} (fits : n ≤ 65535) (low : bytes[place]? = some n.toUInt8)
    (high : bytes[place + 1]? = some (n / 256).toUInt8) :
    Source.number ⟨bytes, 8 * place⟩ 16 = .ok (n, ⟨bytes, 8 * (place + 2)⟩) := by
  have first := number_bits low 8 0 rfl
  have last := number_bits high 8 0 rfl
  rw [Nat.pow_zero, Nat.div_one, toNat_toUInt8] at first last
  have both := number_add first last
  rwa [show n % 256 + 2 ^ 8 * (n / 256 % 256) = n by omega] at both

end Bits

/-- What stands in front of the bytes of a stored block. -/
def blockHeader (isLast : Bool) (length : Nat) : ByteArray :=
  ⟨#[if isLast then 1 else 0, length.toUInt8, (length / 256).toUInt8, (65535 - length).toUInt8,
    ((65535 - length) / 256).toUInt8]⟩

section Blocks

variable {bytes front payload back : ByteArray} {isLast : Bool} {length : Nat}

theorem getElem?_blockHeader (whole : bytes = front ++ blockHeader isLast length ++ payload ++ back)
    {index : Nat} (inside : index < 5) :
    bytes[front.size + index]? = (blockHeader isLast length)[index]? := by
  rw [whole, ByteArray.append_assoc, ByteArray.append_assoc, getElem?_append_right]
  exact getElem?_append_left inside

private theorem extract_payload (size : payload.size = length)
    (whole : bytes = front ++ blockHeader isLast length ++ payload ++ back) :
    bytes.extract (front.size + 5) (front.size + 5 + length) = payload := by
  have before : (front ++ blockHeader isLast length).size = front.size + 5 := ByteArray.size_append
  have behind := ByteArray.extract_append_size_add' (a := front ++ blockHeader isLast length)
    (b := payload ++ back) (i := 0) (j := length) before.symm
  rw [Nat.add_zero] at behind
  rw [whole, ByteArray.append_assoc, behind]
  exact ByteArray.extract_append_eq_left size.symm

/-- A stored block is read for the bytes that it stores. -/
theorem readStored_eq (size : payload.size = length) (fits : length ≤ 65535)
    (whole : bytes = front ++ blockHeader isLast length ++ payload ++ back) (output : ByteArray) :
    readStored ⟨bytes, 8 * front.size + 3⟩ output =
      .ok (⟨bytes, 8 * (front.size + 5 + length)⟩, output ++ payload) := by
  have aligned : Source.align ⟨bytes, 8 * front.size + 3⟩ = ⟨bytes, 8 * (front.size + 1)⟩ := by
    unfold Source.align
    have passed : (8 * front.size + 3 + 7) / 8 * 8 = 8 * (front.size + 1) := by omega
    rw [passed]
  have lengths : Source.number ⟨bytes, 8 * (front.size + 1)⟩ 16 =
      .ok (length, ⟨bytes, 8 * (front.size + 3)⟩) :=
    number_word fits (getElem?_blockHeader whole (by decide : 1 < 5))
      (getElem?_blockHeader whole (by decide : 2 < 5))
  have complements : Source.number ⟨bytes, 8 * (front.size + 3)⟩ 16 =
      .ok (65535 - length, ⟨bytes, 8 * (front.size + 5)⟩) :=
    number_word (Nat.sub_le _ _) (getElem?_blockHeader whole (by decide : 3 < 5))
      (getElem?_blockHeader whole (by decide : 4 < 5))
  have before : (front ++ blockHeader isLast length).size = front.size + 5 := ByteArray.size_append
  have start : 8 * (front.size + 5) / 8 = front.size + 5 := by omega
  have room : ¬ bytes.size < front.size + 5 + length := by
    rw [whole, ByteArray.size_append, ByteArray.size_append, before, size]
    omega
  have stored := extract_payload size whole
  unfold readStored
  rw [aligned, lengths]
  show (Source.number ⟨bytes, 8 * (front.size + 3)⟩ 16 >>= _) = _
  rw [complements]
  show (if length + (65535 - length) ≠ 65535 then _
    else if bytes.size < 8 * (front.size + 5) / 8 + length then _ else _) = _
  rw [if_neg (by omega), start, if_neg room]
  show Except.ok ((⟨bytes, 8 * (front.size + 5) + 8 * length⟩ : Source),
    output ++ bytes.extract (front.size + 5) (front.size + 5 + length)) = _
  rw [stored, ← Nat.mul_add]

/-- One more block: a stored one ends the stream or is followed by the next. -/
theorem readBlocks_stored (size : payload.size = length) (fits : length ≤ 65535)
    (whole : bytes = front ++ blockHeader isLast length ++ payload ++ back) (fuel : Nat)
    (output : ByteArray) :
    readBlocks (fuel + 1) ⟨bytes, 8 * front.size⟩ output =
      if isLast then .ok (⟨bytes, 8 * (front.size + 5 + length)⟩, output ++ payload)
      else readBlocks fuel ⟨bytes, 8 * (front.size + 5 + length)⟩ (output ++ payload) := by
  have found : bytes[front.size]? = some (if isLast then 1 else 0) :=
    getElem?_blockHeader whole (by decide : 0 < 5)
  have bit (offset : Nat) (inside : offset < 8) : Source.next ⟨bytes, 8 * front.size + offset⟩ =
      .ok ((if isLast then (1 : UInt8) else 0).toNat / 2 ^ offset % 2,
        ⟨bytes, 8 * front.size + (offset + 1)⟩) := by
    have place : (8 * front.size + offset) / 8 = front.size := by omega
    have low : (8 * front.size + offset) % 8 = offset := by omega
    rw [next_eq (by rw [place]; exact found), low]
    rfl
  have stored : Source.number ⟨bytes, 8 * front.size + 1⟩ 2 =
      .ok (0, ⟨bytes, 8 * front.size + 3⟩) := by
    rw [Source.number, bit 1 (by decide)]
    show (Source.number ⟨bytes, 8 * front.size + 2⟩ 1 >>= _) = _
    rw [Source.number, bit 2 (by decide)]
    cases isLast <;> rfl
  rw [readBlocks]
  have first := bit 0 (by decide)
  rw [Nat.add_zero] at first
  rw [first]
  show (Source.number ⟨bytes, 8 * front.size + 1⟩ 2 >>= _) = _
  rw [stored]
  show (readStored ⟨bytes, 8 * front.size + 3⟩ output >>= _) = _
  rw [readStored_eq size fits whole]
  cases isLast <;> rfl

end Blocks

/-- How many bytes the block from some place on stores. -/
def blockSize (bytes : ByteArray) (start : Nat) : Nat := min storedLimit (bytes.size - start)

def block (bytes : ByteArray) (isLast : Bool) (start : Nat) : ByteArray :=
  blockHeader isLast (blockSize bytes start) ++
    bytes.extract start (start + blockSize bytes start)

theorem storeFrom_last {bytes : ByteArray} {start : Nat}
    (last : bytes.size ≤ start + blockSize bytes start) (fuel : Nat) (output : ByteArray) :
    storeFrom bytes fuel start output = output ++ block bytes true start := by
  unfold blockSize at last
  unfold block blockHeader blockSize
  rw [← ByteArray.append_assoc]
  cases fuel with
  | zero =>
    simp only [storeFrom, if_pos last]
    rfl
  | succ fuel =>
    simp only [storeFrom, if_pos last]
    rfl

theorem storeFrom_more {bytes : ByteArray} {start : Nat}
    (more : ¬ bytes.size ≤ start + blockSize bytes start) (fuel : Nat) (output : ByteArray) :
    storeFrom bytes (fuel + 1) start output =
      storeFrom bytes fuel (start + blockSize bytes start) (output ++ block bytes false start) := by
  unfold blockSize at more
  unfold block blockHeader blockSize
  rw [← ByteArray.append_assoc, storeFrom]
  simp only [if_neg more]
  rfl

section Payload

variable {payload : ByteArray}

theorem blockSize_le (payload : ByteArray) (start : Nat) : blockSize payload start ≤ 65535 :=
  Nat.min_le_left _ _

theorem size_extract_block (start : Nat) :
    (payload.extract start (start + blockSize payload start)).size = blockSize payload start := by
  unfold blockSize
  rw [ByteArray.size_extract]
  omega

theorem size_block (isLast : Bool) (start : Nat) :
    (block payload isLast start).size = 5 + blockSize payload start := by
  rw [block, ByteArray.size_append, size_extract_block]
  rfl

/-- Without a last block another one begins further on. -/
theorem blockSize_of_more {start : Nat} (more : ¬ payload.size ≤ start + blockSize payload start) :
    blockSize payload start = 65535 := by
  unfold blockSize at more ⊢
  unfold storedLimit at more ⊢
  omega

/-- The blocks that store some bytes are written behind what there is. -/
theorem storeFrom_append (fuel start : Nat) (front output : ByteArray) :
    storeFrom payload fuel start (front ++ output) =
      front ++ storeFrom payload fuel start output := by
  induction fuel generalizing start output with
  | zero => simp only [storeFrom, ByteArray.append_assoc]
  | succ fuel ih =>
    by_cases last : payload.size ≤ start + blockSize payload start
    · rw [storeFrom_last last, storeFrom_last last, ByteArray.append_assoc]
    · rw [storeFrom_more last, storeFrom_more last, ByteArray.append_assoc, ih]

private theorem readBlocks_block {bytes front back : ByteArray} {isLast : Bool} {start : Nat}
    (whole : bytes = front ++ block payload isLast start ++ back) (steps : Nat)
    (output : ByteArray) :
    readBlocks (steps + 1) ⟨bytes, 8 * front.size⟩ output =
      if isLast then .ok (⟨bytes, 8 * (front ++ block payload isLast start).size⟩,
        output ++ payload.extract start (start + blockSize payload start))
      else readBlocks steps ⟨bytes, 8 * (front ++ block payload isLast start).size⟩
        (output ++ payload.extract start (start + blockSize payload start)) := by
  rw [block, ← ByteArray.append_assoc] at whole
  rw [ByteArray.size_append, size_block, ← Nat.add_assoc]
  exact readBlocks_stored (size_extract_block start) (blockSize_le payload start) whole steps output

private theorem readBlocks_last {bytes front back : ByteArray} {fuel start : Nat}
    (inside : start ≤ payload.size) (last : payload.size ≤ start + blockSize payload start)
    (whole : bytes = storeFrom payload fuel start front ++ back) (steps : Nat)
    (output : ByteArray) :
    readBlocks (steps + 1) ⟨bytes, 8 * front.size⟩ output =
      .ok (⟨bytes, 8 * (storeFrom payload fuel start front).size⟩,
        output ++ payload.extract start payload.size) := by
  have stop : start + blockSize payload start = payload.size := by
    unfold blockSize at last ⊢
    omega
  rw [storeFrom_last last] at whole ⊢
  rw [readBlocks_block whole, stop]
  rfl

/-- Stored blocks are read for all the bytes they store. -/
theorem readBlocks_storeFrom {bytes front back : ByteArray} {fuel start steps : Nat}
    (inside : start ≤ payload.size) (enough : payload.size ≤ start + fuel) (more : fuel < steps)
    (output : ByteArray) (whole : bytes = storeFrom payload fuel start front ++ back) :
    readBlocks steps ⟨bytes, 8 * front.size⟩ output =
      .ok (⟨bytes, 8 * (storeFrom payload fuel start front).size⟩,
        output ++ payload.extract start payload.size) := by
  obtain ⟨steps, rfl⟩ := Nat.exists_eq_add_one_of_ne_zero (Nat.ne_zero_of_lt more)
  -- Both walks over the blocks are followed at once: what is in front of a block has been read.
  induction fuel generalizing start front output steps with
  | zero => exact readBlocks_last inside (by omega) whole steps output
  | succ fuel ih =>
    by_cases last : payload.size ≤ start + blockSize payload start
    · exact readBlocks_last inside last whole steps output
    have full := blockSize_of_more last
    rw [storeFrom_more last] at whole ⊢
    have split : bytes = front ++ block payload false start ++
        (storeFrom payload fuel (start + blockSize payload start) ByteArray.empty ++ back) := by
      rw [whole, ← ByteArray.append_assoc, ← storeFrom_append, ByteArray.append_empty]
    obtain ⟨steps, rfl⟩ := Nat.exists_eq_add_one_of_ne_zero (by omega : steps ≠ 0)
    rw [readBlocks_block split]
    show readBlocks (steps + 1) _ _ = _
    rw [ih (by omega) (by omega) _ whole steps (by omega), ByteArray.append_assoc,
      ← ByteArray.extract_eq_extract_append_extract _ (by omega) (by omega)]

theorem size_le_storeFrom {fuel start : Nat} (enough : payload.size ≤ start + fuel)
    (output : ByteArray) :
    output.size + (payload.size - start) ≤ (storeFrom payload fuel start output).size := by
  induction fuel generalizing start output with
  | zero =>
    rw [storeFrom_last (by omega), ByteArray.size_append, size_block]
    omega
  | succ fuel ih =>
    by_cases last : payload.size ≤ start + blockSize payload start
    · rw [storeFrom_last last, ByteArray.size_append, size_block]
      omega
    · have full := blockSize_of_more last
      rw [storeFrom_more last]
      have rest := ih (by omega : payload.size ≤ start + blockSize payload start + fuel)
        (output ++ block payload false start)
      rw [ByteArray.size_append, size_block] at rest
      omega

/-- A stream of stored blocks unpacks to the bytes it stores. -/
theorem unpack_store (front payload back : ByteArray) :
    unpack (front ++ store payload ++ back) front.size =
      .ok (payload, front.size + (store payload).size) := by
  have behind : front ++ store payload = storeFrom payload payload.size 0 front := by
    unfold store
    rw [← storeFrom_append, ByteArray.append_empty]
  have aligned (count : Nat) (bytes : ByteArray) :
      (Source.align ⟨bytes, 8 * count⟩).passed / 8 = count := by
    unfold Source.align
    show (8 * count + 7) / 8 * 8 / 8 = count
    omega
  have long : front.size + (payload.size - 0) ≤ (storeFrom payload payload.size 0 front).size :=
    size_le_storeFrom (by omega) front
  rw [← behind] at long
  have more : payload.size < 8 * (front ++ store payload ++ back).size + 1 := by
    rw [ByteArray.size_append]
    omega
  unfold unpack
  rw [readBlocks_storeFrom (Nat.zero_le _) (by omega) more ByteArray.empty
    (congrArg (· ++ back) behind)]
  show Except.ok (ByteArray.empty ++ payload.extract 0 payload.size,
    (Source.align ⟨front ++ store payload ++ back,
      8 * (storeFrom payload payload.size 0 front).size⟩).passed / 8) = _
  rw [aligned, ← behind, ByteArray.size_append, ByteArray.empty_append, ByteArray.extract_zero_size]

end Payload

end Inflate

namespace Gzip

section Fields

variable {front back bytes : ByteArray} {index n : Nat}

theorem byte_append_left (inside : index < front.size) :
    byte (front ++ back) index = byte front index := by
  unfold byte
  rw [Inflate.getElem?_append_left inside]

theorem byte_append_right (front back : ByteArray) (index : Nat) :
    byte (front ++ back) (front.size + index) = byte back index := by
  unfold byte
  rw [Inflate.getElem?_append_right]

theorem doubleWord_eq {first second third fourth : Nat} (one : byte bytes index = .ok first)
    (two : byte bytes (index + 1) = .ok second) (three : byte bytes (index + 2) = .ok third)
    (four : byte bytes (index + 3) = .ok fourth) :
    doubleWord bytes index = .ok (first + 256 * second + 65536 * (third + 256 * fourth)) := by
  unfold doubleWord word
  rw [one, two]
  show (do
    let low ← byte bytes (index + 2)
    let high ← byte bytes (index + 2 + 1)
    Except.ok (low + 256 * high)) >>= _ = _
  rw [three, four]
  rfl

/-- Four bytes hold a number up to its lowest 32 bits. -/
theorem doubleWord_fourBytes (front back : ByteArray) (n : Nat) :
    doubleWord (front ++ (fourBytes n ++ back)) front.size = .ok (n % 4294967296) := by
  have held (index : Nat) (inside : index < 4) :
      byte (front ++ (fourBytes n ++ back)) (front.size + index) = byte (fourBytes n) index :=
    (byte_append_right front _ index).trans (byte_append_left inside)
  refine (doubleWord_eq (held 0 (by decide)) (held 1 (by decide)) (held 2 (by decide))
    (held 3 (by decide))).trans (congrArg Except.ok ?_)
  show n.toUInt8.toNat + 256 * (n / 256).toUInt8.toNat +
    65536 * ((n / 65536).toUInt8.toNat + 256 * (n / 16777216).toUInt8.toNat) = _
  simp only [Inflate.toNat_toUInt8]
  omega

theorem passHeader_header (rest : ByteArray) : passHeader (header ++ rest) = .ok 10 := by
  have held (index : Nat) (inside : index < 10) :
      byte (header ++ rest) index = byte header index := byte_append_left inside
  have magic : doubleWord (header ++ rest) 0 = .ok 0x00088B1F :=
    doubleWord_eq (held 0 (by decide)) (held 1 (by decide)) (held 2 (by decide))
      (held 3 (by decide))
  unfold passHeader
  rw [held 9 (by decide), magic]
  rfl

end Fields

/-- What is packed unpacks to itself. -/
theorem unpack_pack (bytes : ByteArray) : unpack (pack bytes) = .ok bytes := by
  have small : (Crc32.ofBytes bytes).toNat % 4294967296 = (Crc32.ofBytes bytes).toNat :=
    Nat.mod_eq_of_lt (Crc32.ofBytes bytes).toNat_lt
  have start : passHeader (pack bytes) = .ok 10 := by
    unfold pack
    rw [ByteArray.append_assoc, ByteArray.append_assoc]
    exact passHeader_header _
  have stream : Inflate.unpack (pack bytes) 10 =
      .ok (bytes, (header ++ Inflate.store bytes).size) := by
    unfold pack
    rw [ByteArray.append_assoc, ByteArray.size_append]
    exact Inflate.unpack_store header bytes _
  have checksum : doubleWord (pack bytes) (header ++ Inflate.store bytes).size =
      .ok (Crc32.ofBytes bytes).toNat := by
    unfold pack
    rw [ByteArray.append_assoc, doubleWord_fourBytes, small]
  have size : doubleWord (pack bytes) ((header ++ Inflate.store bytes).size + 4) =
      .ok (bytes.size % 4294967296) := by
    have before : (header ++ Inflate.store bytes ++ fourBytes (Crc32.ofBytes bytes).toNat).size =
        (header ++ Inflate.store bytes).size + 4 := ByteArray.size_append
    unfold pack
    rw [← before]
    have behind := doubleWord_fourBytes
      (header ++ Inflate.store bytes ++ fourBytes (Crc32.ofBytes bytes).toNat) .empty bytes.size
    rwa [ByteArray.append_empty] at behind
  unfold unpack
  rw [start]
  show ((Inflate.unpack (pack bytes) 10).mapError Fault.ofInflate >>= _) = _
  rw [stream]
  show (doubleWord (pack bytes) (header ++ Inflate.store bytes).size >>= _) = _
  rw [checksum]
  show (doubleWord (pack bytes) ((header ++ Inflate.store bytes).size + 4) >>= _) = _
  rw [size]
  exact if_pos ⟨rfl, rfl⟩

instance : LawfulCompressor where
  unpack_pack bytes := by
    show (unpack (pack bytes)).mapError Fault.message = _
    rw [unpack_pack]
    rfl

end Gzip

end SpawnGuard
