import SpawnGuard.Listing.Literal

/-!
Integer constants as they are printed, in decimal digits with a minus sign in front of negative
ones: each is read back as itself.
-/
namespace SpawnGuard.Listing

private theorem digit?_of_isDigit {c : Char} (digit : c.isDigit = true) :
    digit? 10 c = some (c.toNat - '0'.toNat) := by
  have range : '0' ≤ c ∧ c ≤ '9' := by
    simpa [Char.isDigit, Char.le_def, UInt32.le_iff_toNat_le] using digit
  have high : c.toNat ≤ '9'.toNat := range.2
  have small : c.toNat - '0'.toNat < 10 := by
    have nine : '9'.toNat = '0'.toNat + 9 := rfl
    omega
  unfold digit?
  simp only [range, and_self, if_true, small]

private theorem le_ofDigitChars (digits : List Char) (value : Nat) :
    value ≤ Nat.ofDigitChars 10 digits value := by
  have grows : value ≤ 10 ^ digits.length * value :=
    Nat.le_mul_of_pos_left value (Nat.pow_pos (by decide))
  rw [Nat.ofDigitChars_eq_ofDigitChars_zero]
  exact Nat.le_add_right_of_le grows

private theorem appendDigits_eq_ok {bound : Nat} {digits : List Char}
    (plain : ∀ c ∈ digits, c.isDigit = true) (value : Nat)
    (small : Nat.ofDigitChars 10 digits value ≤ bound) :
    appendDigits 10 bound value digits = .ok (Nat.ofDigitChars 10 digits value) := by
  induction digits generalizing value with
  | nil => simp [appendDigits]
  | cons c rest ih =>
    obtain ⟨first, others⟩ := List.forall_mem_cons.mp plain
    rw [Nat.ofDigitChars_cons, Nat.mul_comm] at small ⊢
    have room := Nat.le_trans (le_ofDigitChars rest _) small
    unfold appendDigits
    simp only [digit?_of_isDigit first, room, if_true]
    exact ih others _ small

private theorem isDigit_of_mem {number : Nat} : ∀ c ∈ Nat.toDigits 10 number, c.isDigit = true :=
  fun _ inside => Nat.isDigit_of_mem_toDigits (by decide) (by decide) inside

private theorem readDigits_toDigits {bound number : Nat} (small : number ≤ bound) :
    readDigits 10 bound (Nat.toDigits 10 number) = .ok number := by
  unfold readDigits
  rw [if_neg (by simp [Nat.toDigits_ne_nil]), appendDigits_eq_ok isDigit_of_mem 0 (by simpa)]
  simp

private theorem hexDigits?_of_digits {digits : List Char}
    (plain : ∀ c ∈ digits, c.isDigit = true) : hexDigits? digits = none := by
  unfold hexDigits?
  split
  · rename_i rest
    exact absurd (plain 'x' (by simp)) (by decide)
  · rename_i rest
    exact absurd (plain 'X' (by simp)) (by decide)
  · rfl

private theorem readUnsigned_toDigits (negative : Bool) {number : Nat}
    (small : number ≤ greatestInt) :
    readUnsigned negative (Nat.toDigits 10 number) = .ok (Int32.ofNat number) := by
  unfold readUnsigned
  simp only [hexDigits?_of_digits isDigit_of_mem, readDigits_toDigits small]

private theorem readInt_digits {digits : List Char} (plain : ∀ c ∈ digits, c.isDigit = true) :
    readInt digits = readUnsigned false digits := by
  unfold readInt
  split
  · exact absurd (plain '-' (by simp)) (by decide)
  · exact absurd (plain '+' (by simp)) (by decide)
  · exact absurd (plain '+' (by simp)) (by decide)
  · rfl

private theorem readInt_minus {digits : List Char} (plain : ∀ c ∈ digits, c.isDigit = true) :
    readInt ('-' :: digits) = (readUnsigned true digits).map fun value => -value := by
  unfold readInt
  simp only
  split
  · exact absurd (plain '-' (by simp)) (by decide)
  · exact absurd (plain '+' (by simp)) (by decide)
  · rfl

/-- Every constant is read back from its decimal digits. -/
theorem readInt_toString (value : Int32) : readInt (toString value.toInt).toList = .ok value := by
  have low := value.le_toInt
  have high := value.toInt_lt
  rw [Int.toString_eq_repr, Int.repr_eq_if]
  split
  · rename_i positive
    have small : value.toInt.toNat ≤ greatestInt := by
      unfold greatestInt
      omega
    rw [Nat.toList_repr, readInt_digits isDigit_of_mem, readUnsigned_toDigits false small,
      ← Int32.ofInt_eq_ofNat, Int.toNat_of_nonneg positive, Int32.ofInt_toInt]
  · rename_i negative
    have text : ("-" ++ (-value.toInt).toNat.repr).toList =
        '-' :: Nat.toDigits 10 (-value.toInt).toNat := by
      rw [String.toList_append, Nat.toList_repr]
      rfl
    rw [text, readInt_minus isDigit_of_mem]
    -- The least constant is the one whose digits exceed the greatest.
    by_cases least : value = Int32.minValue
    · subst least
      rfl
    · have other : value.toInt ≠ -2 ^ 31 := fun same => least (Int32.toInt_inj.mp same)
      have small : (-value.toInt).toNat ≤ greatestInt := by
        unfold greatestInt
        omega
      have back : -((-value.toInt).toNat : Int) = value.toInt := by omega
      rw [readUnsigned_toDigits true small, Except.map, Int32.neg_ofNat, back, Int32.ofInt_toInt]

end SpawnGuard.Listing
