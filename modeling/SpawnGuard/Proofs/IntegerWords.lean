import Mathlib.Data.List.Induction
import SpawnGuard.Listing.Statement
import SpawnGuard.Proofs.Answers
import SpawnGuard.Word

/-!
Integer words and what they denote: decimal numbers with at most one sign, and patterns of 32 bits.
A word is read as what it denotes, for every value in the range and in every spelling but one: the
least integer is not read with zeros in front of its digits.
-/
namespace SpawnGuard.Listing

def digitAlphabet : List Char := "0123456789abcdef".toList

/-- A digit in a base up to sixteen, a letter in either case. -/
def IsDigit (radix : Nat) (c : Char) : Prop := c.toLower ∈ digitAlphabet.take radix

def digitValue (c : Char) : Nat := digitAlphabet.idxOf c.toLower

def numeral (radix : Nat) (digits : List Char) : Nat :=
  digits.foldl (fun value c => value * radix + digitValue c) 0

/-- One or more digits, and the number they write. -/
structure Writes (radix : Nat) (digits : List Char) (value : Nat) : Prop where
  written : digits ≠ []
  plain : ∀ c ∈ digits, IsDigit radix c
  value : numeral radix digits = value

def IsHexMark (c : Char) : Prop := c = 'x' ∨ c = 'X'

/-- The integer words and the integers they denote. The pattern behind a hexadecimal mark is read
as a signed word, and negated in its 32 bits if a minus sign stands in front. -/
inductive Denotes : List Char → Int → Prop where
  | decimal {digits : List Char} {n : Nat} (writes : Writes 10 digits n)
    (fits : Word.Fits n) : Denotes digits n
  | plus {digits : List Char} {n : Nat} (writes : Writes 10 digits n)
    (fits : Word.Fits n) : Denotes ('+' :: digits) n
  | minus {digits : List Char} {n : Nat} (writes : Writes 10 digits n)
    (fits : Word.Fits (-n)) : Denotes ('-' :: digits) (-n)
  | pattern {mark : Char} {digits : List Char} {n : Nat} (hex : IsHexMark mark)
    (writes : Writes 16 digits n) (bits : n < 4294967296) :
    Denotes ('0' :: mark :: digits) ((n : Int).bmod 4294967296)
  | negated {mark : Char} {digits : List Char} {n : Nat} (hex : IsHexMark mark)
    (writes : Writes 16 digits n) (bits : n < 4294967296) :
    Denotes ('-' :: '0' :: mark :: digits) ((-n : Int).bmod 4294967296)

/-- The least integer with zeros in front of its digits. -/
def PaddedLeast (word : List Char) : Prop :=
  ∃ zeros, word = '-' :: (List.replicate (zeros + 1) '0' ++ leastIntDigits)

instance (radix : Nat) (c : Char) : Decidable (IsDigit radix c) :=
  inferInstanceAs (Decidable (_ ∈ _))

variable {radix bound n : Nat} {c : Char} {digits word : List Char} {value : Int32}

private theorem toLower_of_not_ascii (wide : ¬ c.toNat < 128) : c.toLower = c := by
  unfold Char.toLower
  rw [dif_neg]
  rintro ⟨_, high⟩
  have below : c.toNat ≤ 'Z'.toNat := high
  have z : 'Z'.toNat = 90 := rfl
  omega

theorem ascii_of_isDigit (digit : IsDigit radix c) : c.toNat < 128 := by
  by_contra wide
  have inside := List.mem_of_mem_take digit
  rw [toLower_of_not_ascii wide] at inside
  have small : digitAlphabet.all (·.toNat < 128) = true := by decide
  exact wide (of_decide_eq_true (List.all_eq_true.mp small c inside))

private theorem digit?_ascii : ∀ radix ∈ [10, 16], ∀ n < 128,
    digit? radix (Char.ofNat n) =
      if IsDigit radix (Char.ofNat n) then some (digitValue (Char.ofNat n)) else none := by
  decide +kernel

private theorem digit?_of_not_ascii (wide : ¬ c.toNat < 128) : digit? radix c = none := by
  have apart {low high : Char} (ascii : high.toNat < 128) : ¬ (low ≤ c ∧ c ≤ high) := by
    rintro ⟨_, bound⟩
    have below : c.toNat ≤ high.toNat := bound
    omega
  unfold digit?
  rw [if_neg (apart (by decide)), if_neg (apart (by decide)), if_neg (apart (by decide)),
    if_neg (Nat.lt_irrefl radix)]

/-- The digits of a base and their values are those of the alphabet. -/
theorem digit?_eq (base : radix ∈ [10, 16]) (c : Char) :
    digit? radix c = if IsDigit radix c then some (digitValue c) else none := by
  by_cases ascii : c.toNat < 128
  · have same := digit?_ascii radix base c.toNat ascii
    rwa [Char.ofNat_toNat] at same
  · rw [digit?_of_not_ascii ascii, if_neg fun digit => ascii (ascii_of_isDigit digit)]

private theorem decimal_ascii : ∀ n < 128, IsDigit 10 (Char.ofNat n) →
    Nat.digitChar (digitValue (Char.ofNat n)) = Char.ofNat n ∧
      digitValue (Char.ofNat n) < 10 := by
  decide

theorem digitChar_digitValue (digit : IsDigit 10 c) :
    Nat.digitChar (digitValue c) = c ∧ digitValue c < 10 := by
  have same := decimal_ascii c.toNat (ascii_of_isDigit digit)
  rw [Char.ofNat_toNat] at same
  exact same digit

private theorem le_foldl_digits (positive : 0 < radix) (digits : List Char) (start : Nat) :
    start ≤ digits.foldl (fun value c => value * radix + digitValue c) start := by
  induction digits generalizing start with
  | nil => exact Nat.le_refl start
  | cons c rest ih =>
    have grown : start ≤ start * radix := Nat.le_mul_of_pos_right start positive
    have further := ih (start * radix + digitValue c)
    rw [List.foldl_cons]
    omega

/-- Digits are appended as long as the number stays within its bound. -/
theorem appendDigits_eq_ok_iff (base : radix ∈ [10, 16]) {start : Nat} (small : start ≤ bound) :
    appendDigits radix bound start digits = .ok n ↔
      (∀ c ∈ digits, IsDigit radix c) ∧
        digits.foldl (fun value c => value * radix + digitValue c) start = n ∧ n ≤ bound := by
  induction digits generalizing start with
  | nil =>
    constructor
    · rintro ⟨⟩
      exact ⟨by simp, rfl, small⟩
    · rintro ⟨_, rfl, _⟩
      rfl
  | cons c rest ih =>
    rw [appendDigits, digit?_eq base, List.forall_mem_cons, List.foldl_cons]
    by_cases digit : IsDigit radix c
    · simp only [digit, if_true, true_and]
      split
      · rename_i fits
        exact ih fits
      · rename_i large
        -- The number only grows from here.
        have positive : 0 < radix := by
          simp only [List.mem_cons, List.not_mem_nil, or_false] at base
          omega
        have grown := le_foldl_digits positive rest (start * radix + digitValue c)
        constructor
        · rintro ⟨⟩
        · rintro ⟨_, rfl, bounded⟩
          exact absurd (Nat.le_trans grown bounded) large
    · simp [digit]

theorem readDigits_eq_ok_iff (base : radix ∈ [10, 16]) :
    readDigits radix bound digits = .ok n ↔ Writes radix digits n ∧ n ≤ bound := by
  unfold readDigits
  cases digits with
  | nil =>
    constructor
    · rintro ⟨⟩
    · rintro ⟨writes, _⟩
      exact absurd rfl writes.written
  | cons c rest =>
    rw [if_neg (by simp), appendDigits_eq_ok_iff base (Nat.zero_le bound)]
    constructor
    · rintro ⟨plain, value, bounded⟩
      exact ⟨⟨List.cons_ne_nil c rest, plain, value⟩, bounded⟩
    · rintro ⟨writes, bounded⟩
      exact ⟨writes.plain, writes.value, bounded⟩

theorem not_isDigit_mark {mark : Char} (hex : IsHexMark mark) : ¬ IsDigit 10 mark := by
  rcases hex with rfl | rfl <;> decide

theorem hexDigits?_eq_some :
    hexDigits? word = some digits ↔
      ∃ mark, IsHexMark mark ∧ word = '0' :: mark :: digits ∧ digits.head? ≠ some '+' := by
  constructor
  · intro found
    unfold hexDigits? at found
    split at found
    · split at found
      · cases found
      · rename_i unsigned
        cases found
        exact ⟨'x', .inl rfl, rfl, unsigned⟩
    · split at found
      · cases found
      · rename_i unsigned
        cases found
        exact ⟨'X', .inr rfl, rfl, unsigned⟩
    · cases found
  · rintro ⟨mark, rfl | rfl, rfl, unsigned⟩ <;> simp [hexDigits?, unsigned]

theorem Writes.head_ne {sign : Char} (writes : Writes radix digits n)
    (other : ¬ IsDigit radix sign) : digits.head? ≠ some sign := by
  intro first
  exact other (writes.plain sign (List.mem_of_head? first))

theorem hexDigits?_of_pattern {mark : Char} (hex : IsHexMark mark) (writes : Writes 16 digits n) :
    hexDigits? ('0' :: mark :: digits) = some digits :=
  hexDigits?_eq_some.mpr ⟨mark, hex, rfl, writes.head_ne (by decide)⟩

theorem hexDigits?_of_decimal (writes : Writes 10 digits n) : hexDigits? digits = none := by
  cases found : hexDigits? digits with
  | none => rfl
  | some hex =>
    obtain ⟨mark, marks, rfl, _⟩ := hexDigits?_eq_some.mp found
    exact absurd (writes.plain mark (by simp)) (not_isDigit_mark marks)

/-- Words without a sign, and how they are read behind a minus sign and without one. -/
inductive Magnitude (negative : Bool) : List Char → Int32 → Prop where
  | pattern {mark : Char} {digits : List Char} {n : Nat} (hex : IsHexMark mark)
    (writes : Writes 16 digits n) (bits : n ≤ greatestPattern) :
    Magnitude negative ('0' :: mark :: digits) (Int32.ofNat n)
  | decimal {digits : List Char} {n : Nat} (writes : Writes 10 digits n)
    (small : n ≤ greatestInt) : Magnitude negative digits (Int32.ofNat n)
  | least (minus : negative = true) : Magnitude negative leastIntDigits Int32.minValue

theorem readUnsigned_eq_ok {negative : Bool} :
    readUnsigned negative word = .ok value ↔ Magnitude negative word value := by
  have hexadecimal : 16 ∈ [10, 16] := by decide
  have decimal : 10 ∈ [10, 16] := by decide
  constructor
  · intro read
    unfold readUnsigned at read
    split at read
    · rename_i hex found
      obtain ⟨mark, marks, rfl, _⟩ := hexDigits?_eq_some.mp found
      obtain ⟨n, digits, rfl⟩ := map_eq_ok read
      obtain ⟨writes, bits⟩ := (readDigits_eq_ok_iff hexadecimal).mp digits
      exact .pattern marks writes bits
    · split at read
      · rename_i n digits
        cases read
        obtain ⟨writes, small⟩ := (readDigits_eq_ok_iff decimal).mp digits
        exact .decimal writes small
      · split at read
        · rename_i least
          cases read
          rw [least.2]
          exact .least least.1
        · cases read
  · intro magnitude
    unfold readUnsigned
    cases magnitude with
    | pattern hex writes bits =>
      have digits := (readDigits_eq_ok_iff hexadecimal).mpr ⟨writes, bits⟩
      simp only [hexDigits?_of_pattern hex writes, digits]
      rfl
    | decimal writes small =>
      have digits := (readDigits_eq_ok_iff decimal).mpr ⟨writes, small⟩
      simp only [hexDigits?_of_decimal writes, digits]
    | least minus =>
      subst minus
      decide

/-- A word without a sign begins with a digit. -/
theorem Magnitude.head_ne {negative : Bool} {sign : Char}
    (magnitude : Magnitude negative word value) (other : ¬ IsDigit 10 sign) :
    word.head? ≠ some sign := by
  cases magnitude with
  | pattern =>
    rintro ⟨⟩
    exact other (by decide)
  | decimal writes => exact writes.head_ne other
  | least =>
    rintro ⟨⟩
    exact other (by decide)

theorem readInt_unsigned (minus : word.head? ≠ some '-') (plus : word.head? ≠ some '+') :
    readInt word = readUnsigned false word := by
  unfold readInt
  split
  · exact absurd rfl minus
  · exact absurd rfl plus
  · exact absurd rfl plus
  · rfl

theorem readInt_behind_minus (minus : word.head? ≠ some '-') (plus : word.head? ≠ some '+') :
    readInt ('-' :: word) = (readUnsigned true word).map fun value => -value := by
  unfold readInt
  simp only
  split
  · exact absurd rfl minus
  · exact absurd rfl plus
  · rfl

theorem readInt_behind_plus (written : digits ≠ []) :
    readInt ('+' :: digits) =
      (readDigits 10 greatestInt digits).map fun value => Int32.ofNat value := by
  obtain ⟨c, rest, rfl⟩ := List.exists_cons_of_ne_nil written
  rfl

/-- How a word is read: a minus sign, a plus sign or no sign, and then a number. -/
theorem readInt_eq_ok :
    readInt word = .ok value ↔
      (∃ rest magnitude, word = '-' :: rest ∧ Magnitude true rest magnitude ∧
        -magnitude = value) ∨
      (∃ digits n, word = '+' :: digits ∧ Writes 10 digits n ∧ n ≤ greatestInt ∧
        Int32.ofNat n = value) ∨
      Magnitude false word value := by
  have decimal : 10 ∈ [10, 16] := by decide
  constructor
  · intro read
    unfold readInt at read
    split at read
    · split at read
      · cases read
      · cases read
      · obtain ⟨magnitude, unsigned, rfl⟩ := map_eq_ok read
        exact .inl ⟨_, magnitude, rfl, readUnsigned_eq_ok.mp unsigned, rfl⟩
    · cases read
    · rename_i digits _
      obtain ⟨n, unsigned, rfl⟩ := map_eq_ok read
      obtain ⟨writes, small⟩ := (readDigits_eq_ok_iff decimal).mp unsigned
      exact .inr (.inl ⟨digits, n, rfl, writes, small, rfl⟩)
    · exact .inr (.inr (readUnsigned_eq_ok.mp read))
  · rintro (⟨rest, magnitude, rfl, unsigned, rfl⟩ | ⟨digits, n, rfl, writes, small, rfl⟩ |
      unsigned)
    · rw [readInt_behind_minus (unsigned.head_ne (by decide)) (unsigned.head_ne (by decide)),
        readUnsigned_eq_ok.mpr unsigned]
      rfl
    · rw [readInt_behind_plus writes.written,
        (readDigits_eq_ok_iff decimal).mpr ⟨writes, small⟩]
      rfl
    · rw [readInt_unsigned (unsigned.head_ne (by decide)) (unsigned.head_ne (by decide))]
      exact readUnsigned_eq_ok.mpr unsigned

theorem numeral_concat (radix : Nat) (front : List Char) (c : Char) :
    numeral radix (front ++ [c]) = numeral radix front * radix + digitValue c := by
  simp [numeral, List.foldl_append]

/-- A decimal number is spelled in one way, up to zeros in front. -/
theorem spelled_of_plain (plain : ∀ c ∈ digits, IsDigit 10 c) :
    ∃ zeros, digits = List.replicate zeros '0' ++
      if numeral 10 digits = 0 then [] else Nat.toDigits 10 (numeral 10 digits) := by
  induction digits using List.reverseRecOn with
  | nil => exact ⟨0, rfl⟩
  | append_singleton front c ih =>
    obtain ⟨zeros, spelled⟩ := ih fun d member => plain d (List.mem_append_left _ member)
    obtain ⟨char, small⟩ := digitChar_digitValue (plain c (by simp))
    rw [numeral_concat]
    generalize numeral 10 front = m at spelled
    generalize digitValue c = d at char small
    subst char
    by_cases zero : m = 0
    · subst zero
      rw [if_pos rfl, List.append_nil] at spelled
      rw [Nat.zero_mul, Nat.zero_add, spelled]
      by_cases last : d = 0
      · subst last
        exact ⟨zeros + 1, by simp [List.replicate_succ', Nat.digitChar]⟩
      · exact ⟨zeros, by rw [if_neg last, Nat.toDigits_of_lt_base small]⟩
    · rw [if_neg zero] at spelled
      have more : Nat.toDigits 10 (m * 10 + d) = Nat.toDigits 10 m ++ [d.digitChar] := by
        rw [Nat.toDigits_of_base_le (by decide) (by omega)]
        have quotient : (m * 10 + d) / 10 = m := by omega
        have rest : (m * 10 + d) % 10 = d := by omega
        rw [quotient, rest]
      exact ⟨zeros, by rw [if_neg (by omega), more, ← List.append_assoc, ← spelled]⟩

theorem numeral_zeros (radix zeros : Nat) (digits : List Char) :
    numeral radix (List.replicate zeros '0' ++ digits) = numeral radix digits := by
  have zero : digitValue '0' = 0 := by decide
  induction zeros with
  | zero => rfl
  | succ zeros ih =>
    rw [← ih]
    simp [numeral, List.replicate_succ, zero]

theorem numeral_leastIntDigits : numeral 10 leastIntDigits = 2147483648 := by
  decide +kernel

theorem writes_padded (zeros : Nat) :
    Writes 10 (List.replicate zeros '0' ++ leastIntDigits) 2147483648 where
  written := List.append_ne_nil_of_right_ne_nil _ (by decide)
  plain := by
    intro c member
    rcases List.mem_append.mp member with zero | digit
    · rw [List.eq_of_mem_replicate zero]
      decide
    · have all : leastIntDigits.all (IsDigit 10 ·) = true := by decide
      exact of_decide_eq_true (List.all_eq_true.mp all c digit)
  value := (numeral_zeros 10 zeros leastIntDigits).trans numeral_leastIntDigits

/-- The spellings of the least integer differ in the zeros in front. -/
theorem padded_of_writes (writes : Writes 10 digits 2147483648) :
    ∃ zeros, digits = List.replicate zeros '0' ++ leastIntDigits := by
  obtain ⟨zeros, spelled⟩ := spelled_of_plain writes.plain
  have known : Nat.toDigits 10 2147483648 = leastIntDigits := by decide
  rw [writes.value, if_neg (by decide), known] at spelled
  exact ⟨zeros, spelled⟩

theorem fits_natCast : Word.Fits (n : Int) ↔ n ≤ greatestInt := by
  unfold Word.Fits greatestInt
  omega

theorem fits_neg_natCast (small : n ≤ greatestInt) : Word.Fits (-n : Int) := by
  unfold Word.Fits
  unfold greatestInt at small
  omega

theorem toInt_ofNat_of_le (small : n ≤ greatestInt) : (Int32.ofNat n).toInt = n := by
  rw [← Int32.ofInt_eq_ofNat]
  exact Word.toInt_ofInt (fits_natCast.mpr small)

theorem toInt_neg_ofNat_of_le (small : n ≤ greatestInt) : (-Int32.ofNat n).toInt = -n := by
  rw [Int32.neg_ofNat]
  exact Word.toInt_ofInt (fits_neg_natCast small)

theorem toInt_neg_ofNat (n : Nat) : (-Int32.ofNat n).toInt = (-n : Int).bmod 4294967296 := by
  rw [Int32.neg_ofNat]
  exact Int32.toInt_ofInt

/-- What is read is what the word denotes. -/
theorem denotes_of_readInt (read : readInt word = .ok value) : Denotes word value.toInt := by
  rcases readInt_eq_ok.mp read with ⟨rest, magnitude, rfl, unsigned, rfl⟩ |
    ⟨digits, n, rfl, writes, small, rfl⟩ | unsigned
  · cases unsigned with
    | @pattern mark digits n hex writes bits =>
      rw [toInt_neg_ofNat]
      exact .negated hex writes (Nat.lt_succ_of_le bits)
    | @decimal digits n writes small =>
      rw [toInt_neg_ofNat_of_le small]
      exact .minus writes (fits_neg_natCast small)
    | least => exact .minus (writes_padded 0) (by decide)
  · rw [toInt_ofNat_of_le small]
    exact .plus writes (fits_natCast.mpr small)
  · cases unsigned with
    | @pattern mark digits n hex writes bits =>
      rw [Int32.toInt_ofNat']
      exact .pattern hex writes (Nat.lt_succ_of_le bits)
    | @decimal digits n writes small =>
      rw [toInt_ofNat_of_le small]
      exact .decimal writes (fits_natCast.mpr small)
    | least minus => cases minus

theorem not_paddedLeast_of_readInt (read : readInt word = .ok value) : ¬ PaddedLeast word := by
  rintro ⟨zeros, rfl⟩
  have padded := writes_padded (zeros + 1)
  rcases readInt_eq_ok.mp read with ⟨rest, magnitude, same, unsigned, _⟩ |
    ⟨digits, n, same, _⟩ | unsigned
  · obtain ⟨_, rfl⟩ := List.cons.inj same
    generalize spelled : List.replicate (zeros + 1) '0' ++ leastIntDigits = digits at *
    cases unsigned with
    | @pattern mark digits n hex => exact not_isDigit_mark hex (padded.plain mark (by simp))
    | decimal writes small =>
      have same : _ = 2147483648 := writes.value.symm.trans padded.value
      unfold greatestInt at small
      omega
    | least =>
      have longer := congrArg List.length spelled
      simp at longer
  · cases same
  · exact unsigned.head_ne (by decide) rfl

/-- What a word denotes is read from it, unless it is the least integer behind zeros. -/
theorem readInt_of_denotes {m : Int} (denotes : Denotes word m) (plain : ¬ PaddedLeast word) :
    ∃ value, readInt word = .ok value ∧ value.toInt = m := by
  cases denotes with
  | @decimal digits n writes fits =>
    have small := fits_natCast.mp fits
    exact ⟨_, readInt_eq_ok.mpr (.inr (.inr (.decimal writes small))), toInt_ofNat_of_le small⟩
  | @plus digits n writes fits =>
    have small := fits_natCast.mp fits
    exact ⟨_, readInt_eq_ok.mpr (.inr (.inl ⟨_, _, rfl, writes, small, rfl⟩)),
      toInt_ofNat_of_le small⟩
  | @minus digits n writes fits =>
    by_cases small : n ≤ greatestInt
    · exact ⟨_, readInt_eq_ok.mpr (.inl ⟨_, _, rfl, .decimal writes small, rfl⟩),
        toInt_neg_ofNat_of_le small⟩
    · have least : n = 2147483648 := by
        have bound := fits.1
        unfold greatestInt at small
        omega
      subst least
      obtain ⟨zeros, rfl⟩ := padded_of_writes writes
      cases zeros with
      | zero =>
        exact ⟨_, readInt_eq_ok.mpr (.inl ⟨_, _, rfl, .least rfl, rfl⟩), by decide⟩
      | succ zeros => exact absurd ⟨zeros, rfl⟩ plain
  | @pattern mark digits n hex writes bits =>
    exact ⟨_, readInt_eq_ok.mpr (.inr (.inr (.pattern hex writes (Nat.le_of_lt_succ bits)))),
      Int32.toInt_ofNat'⟩
  | @negated mark digits n hex writes bits =>
    exact ⟨_, readInt_eq_ok.mpr
      (.inl ⟨_, _, rfl, .pattern hex writes (Nat.le_of_lt_succ bits), rfl⟩), toInt_neg_ofNat n⟩

theorem readOperand_int_eq_error (word : List Char) :
    (∃ fault, readOperand .ldcI4 [word] = .error (.parseInt (String.ofList word) fault)) ↔
      ∀ value, readInt word ≠ .ok value := by
  cases read : readInt word with
  | ok value =>
    have operand : readOperand .ldcI4 [word] = .ok (.int value) := by
      simp [readOperand, Opcode.kind, read]
    simp [operand]
  | error fault =>
    have operand : readOperand .ldcI4 [word] =
        .error (.parseInt (String.ofList word) fault) := by
      simp [readOperand, Opcode.kind, read]
    simp [operand]

/-- A word is read exactly if it denotes an integer and is not the least one behind zeros. Any other
word is refused where a constant stands, with its own text. -/
theorem readInt_iff_denotes (word : List Char) :
    (∀ value, readInt word = .ok value ↔ Denotes word value.toInt ∧ ¬ PaddedLeast word) ∧
    ((∃ fault, readOperand .ldcI4 [word] = .error (.parseInt (String.ofList word) fault)) ↔
      (¬ ∃ n, Denotes word n) ∨ PaddedLeast word) := by
  constructor
  · intro value
    constructor
    · intro read
      exact ⟨denotes_of_readInt read, not_paddedLeast_of_readInt read⟩
    · rintro ⟨denotes, plain⟩
      obtain ⟨other, read, same⟩ := readInt_of_denotes denotes plain
      rwa [← Int32.toInt_inj.mp same]
  · rw [readOperand_int_eq_error]
    constructor
    · intro refused
      by_cases plain : PaddedLeast word
      · exact .inr plain
      · refine .inl ?_
        rintro ⟨n, denotes⟩
        obtain ⟨value, read, _⟩ := readInt_of_denotes denotes plain
        exact refused value read
    · rintro (meaningless | padded) value read
      · exact meaningless ⟨value.toInt, denotes_of_readInt read⟩
      · exact not_paddedLeast_of_readInt read padded

-- The least integer is its own negation in 32 bits.
example : readInt "-0x80000000".toList = .ok Int32.minValue := by decide

/-- One zero in front of the digits of the least integer, and it is too large. -/
theorem padded_least_not_read :
    Denotes "-02147483648".toList (-2147483648) ∧
      readInt "-02147483648".toList = .error .tooLarge :=
  ⟨.minus (writes_padded 1) (by decide), by decide⟩

end SpawnGuard.Listing
