/-!
Unpacking of deflate streams: blocks that are stored, or coded with fixed or given Huffman codes,
each item a byte or a copy of earlier output. A copy may reach behind the start
of the output, where zeros stand.
-/
namespace SpawnGuard.Inflate

inductive Fault where
  | incomplete
  | corrupt
  deriving DecidableEq, Repr

structure Source where
  bytes : ByteArray
  passed : Nat

namespace Source

def next (source : Source) : Except Fault (Nat × Source) :=
  match source.bytes[source.passed / 8]? with
  | none => .error .incomplete
  | some byte =>
    .ok (byte.toNat >>> (source.passed % 8) % 2, { source with passed := source.passed + 1 })

def number (source : Source) : Nat → Except Fault (Nat × Source)
  | 0 => .ok (0, source)
  | bits + 1 => do
    let (low, source) ← source.next
    let (high, source) ← source.number bits
    .ok (low + 2 * high, source)

def align (source : Source) : Source := { source with passed := (source.passed + 7) / 8 * 8 }

end Source

/-- A prefix code: how many symbols have a code of each length from one up to the greatest, and
the symbols in the order of their codes. -/
structure Code where
  counts : List Nat
  symbols : Array Nat

namespace Code

def leftOver : Nat → List Nat → Option Nat
  | free, [] => some free
  | free, count :: rest => if count ≤ 2 * free then leftOver (2 * free - count) rest else none

/-- The code given by the lengths of its codes, symbol by symbol, and what is left over at the
greatest length. A length of zero means that the symbol has no code. -/
def ofLengths? (lengths : List Nat) : Option (Code × Nat) :=
  let sizes := (List.range (max 1 (lengths.foldl max 0))).map (· + 1)
  let counts := sizes.map fun size => lengths.count size
  let symbols := sizes.flatMap fun size =>
    (lengths.zipIdx.filter (·.1 = size)).map (·.2)
  (leftOver 1 counts).map fun free => (⟨counts, symbols.toArray⟩, free)

def complete (lengths : List Nat) : Except Fault Code :=
  match ofLengths? lengths with
  | some (code, 0) => .ok code
  | _ => .error .corrupt

/-- A code that leaves nothing over, or one of at most one symbol, whose code is then one bit. -/
def completeOrShort (lengths : List Nat) : Except Fault Code :=
  match ofLengths? lengths with
  | some (code, free) =>
    if free = 0 ∨ code.counts.length = 1 then .ok code else .error .corrupt
  | none => .error .corrupt

/-- Reads bits until they are a code, at most as many as the longest code has. `first` is the
first code of the present length and `index` the place of its symbol. -/
def readFrom (symbols : Array Nat) (code first index : Nat) (source : Source) :
    List Nat → Except Fault (Nat × Source)
  | [] => .error .corrupt
  | count :: longer => do
    let (bit, source) ← source.next
    let code := code + bit
    if code < first + count then
      match symbols[index + (code - first)]? with
      | some symbol => .ok (symbol, source)
      | none => .error .corrupt
    else readFrom symbols (2 * code) (2 * (first + count)) (index + count) source longer

def read (code : Code) (source : Source) : Except Fault (Nat × Source) :=
  readFrom code.symbols 0 0 0 source code.counts

end Code

structure Codes where
  items : Code
  distances : Code

def lengthTable : Array (Nat × Nat) :=
  #[(3, 0), (4, 0), (5, 0), (6, 0), (7, 0), (8, 0), (9, 0), (10, 0), (11, 1), (13, 1), (15, 1),
    (17, 1), (19, 2), (23, 2), (27, 2), (31, 2), (35, 3), (43, 3), (51, 3), (59, 3), (67, 4),
    (83, 4), (99, 4), (115, 4), (131, 5), (163, 5), (195, 5), (227, 5), (258, 0)]

def distanceTable : Array (Nat × Nat) :=
  #[(1, 0), (2, 0), (3, 0), (4, 0), (5, 1), (7, 1), (9, 2), (13, 2), (17, 3), (25, 3), (33, 4),
    (49, 4), (65, 5), (97, 5), (129, 6), (193, 6), (257, 7), (385, 7), (513, 8), (769, 8),
    (1025, 9), (1537, 9), (2049, 10), (3073, 10), (4097, 11), (6145, 11), (8193, 12), (12289, 12),
    (16385, 13), (24577, 13)]

def readExtended (table : Array (Nat × Nat)) (symbol : Nat) (source : Source) :
    Except Fault (Nat × Source) :=
  match table[symbol]? with
  | none => .error .corrupt
  | some (least, bits) => do
    let (more, source) ← source.number bits
    .ok (least + more, source)

/-- The byte some distance back. Zeros stand before the first byte. -/
def lookBack (distance : Nat) (output : ByteArray) : UInt8 :=
  if output.size < distance then 0 else output[output.size - distance]?.getD 0

def copy (distance : Nat) : Nat → ByteArray → ByteArray
  | 0, output => output
  | length + 1, output => copy distance length (output.push (lookBack distance output))

/-- Reads the items of a coded block up to its end; `fuel` bounds their number. -/
def readItems (codes : Codes) (fuel : Nat) (source : Source) (output : ByteArray) :
    Except Fault (Source × ByteArray) :=
  match fuel with
  | 0 => .error .incomplete
  | fuel + 1 => do
    let (symbol, source) ← codes.items.read source
    if symbol < 256 then readItems codes fuel source (output.push symbol.toUInt8)
    else if symbol = 256 then .ok (source, output)
    else do
      let (length, source) ← readExtended lengthTable (symbol - 257) source
      let (symbol, source) ← codes.distances.read source
      let (distance, source) ← readExtended distanceTable symbol source
      readItems codes fuel source (copy distance length output)

def fixedCodes : Except Fault Codes := do
  let items ← Code.complete
    (List.replicate 144 8 ++ List.replicate 112 9 ++ List.replicate 24 7 ++ List.replicate 8 8)
  let distances ← Code.complete (List.replicate 32 5)
  .ok ⟨items, distances⟩

def lengthOrder : List Nat := [16, 17, 18, 0, 8, 7, 9, 6, 10, 5, 11, 4, 12, 3, 13, 2, 14, 1, 15]

def readThrees (source : Source) : Nat → Except Fault (List Nat × Source)
  | 0 => .ok ([], source)
  | count + 1 => do
    let (value, source) ← source.number 3
    let (rest, source) ← readThrees source count
    .ok (value :: rest, source)

/-- Reads lengths until there are as many as wanted, `lengths` being the last ones first. -/
def readLengths (code : Code) (wanted : Nat) (fuel : Nat) (lengths : List Nat) (source : Source) :
    Except Fault (List Nat × Source) :=
  if wanted ≤ lengths.length then
    if lengths.length = wanted then .ok (lengths.reverse, source) else .error .corrupt
  else
    match fuel with
    | 0 => .error .incomplete
    | fuel + 1 => do
      let (symbol, source) ← code.read source
      if symbol < 16 then readLengths code wanted fuel (symbol :: lengths) source
      else if symbol = 16 then
        match lengths with
        | [] => .error .corrupt
        | last :: _ => do
          let (more, source) ← source.number 2
          readLengths code wanted fuel (List.replicate (3 + more) last ++ lengths) source
      else do
        let (more, source) ←
          if symbol = 17 then source.number 3
          else (source.number 7).map fun (more, source) => (more + 8, source)
        readLengths code wanted fuel (List.replicate (3 + more) 0 ++ lengths) source

def readCodes (source : Source) : Except Fault (Codes × Source) := do
  let (items, source) ← source.number 5
  let (distances, source) ← source.number 5
  let (threes, source) ← source.number 4
  let itemCount := items + 257
  let distanceCount := distances + 1
  if 286 < itemCount ∨ 30 < distanceCount then .error .corrupt
  else do
    let (values, source) ← readThrees source (threes + 4)
    let given := lengthOrder.zip values
    let code ← Code.complete ((List.range 19).map fun symbol => (given.lookup symbol).getD 0)
    let (lengths, source) ← readLengths code (itemCount + distanceCount)
      (itemCount + distanceCount) [] source
    let items ← Code.completeOrShort (lengths.take itemCount)
    let distances ← Code.completeOrShort (lengths.drop itemCount)
    .ok (⟨items, distances⟩, source)

def readStored (source : Source) (output : ByteArray) : Except Fault (Source × ByteArray) := do
  let (length, source) ← source.align.number 16
  let (complement, source) ← source.number 16
  if length + complement ≠ 65535 then .error .corrupt
  else
    let start := source.passed / 8
    if source.bytes.size < start + length then .error .incomplete
    else
      .ok ({ source with passed := source.passed + 8 * length },
        output ++ source.bytes.extract start (start + length))

def readBlocks (fuel : Nat) (source : Source) (output : ByteArray) :
    Except Fault (Source × ByteArray) :=
  match fuel with
  | 0 => .error .incomplete
  | fuel + 1 => do
    let bits := 8 * source.bytes.size
    let (last, source) ← source.next
    let (type, source) ← source.number 2
    let (source, output) ←
      match type with
      | 0 => readStored source output
      | 1 => do
        let codes ← fixedCodes
        readItems codes (bits + 1) source output
      | 2 => do
        let (codes, source) ← readCodes source
        readItems codes (bits + 1) source output
      | _ => .error .corrupt
    if last = 1 then .ok (source, output) else readBlocks fuel source output

def unpack (bytes : ByteArray) (start : Nat) : Except Fault (ByteArray × Nat) := do
  let (source, output) ← readBlocks (8 * bytes.size + 1) ⟨bytes, 8 * start⟩ ByteArray.empty
  .ok (output, source.align.passed / 8)

def storedLimit : Nat := 65535

/-- The blocks that store some bytes as they are, from a place on; `fuel` bounds their number. -/
def storeFrom (bytes : ByteArray) (fuel start : Nat) (output : ByteArray) : ByteArray :=
  let length := min storedLimit (bytes.size - start)
  let isLast := bytes.size ≤ start + length
  let low (n : Nat) : UInt8 := n.toUInt8
  let header : ByteArray :=
    ⟨#[if isLast then 1 else 0, low length, low (length / 256), low (65535 - length),
      low ((65535 - length) / 256)]⟩
  let output := output ++ header ++ bytes.extract start (start + length)
  match fuel with
  | 0 => output
  | fuel + 1 => if isLast then output else storeFrom bytes fuel (start + length) output

def store (bytes : ByteArray) : ByteArray := storeFrom bytes bytes.size 0 ByteArray.empty

end SpawnGuard.Inflate
