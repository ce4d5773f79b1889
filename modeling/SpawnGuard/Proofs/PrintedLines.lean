import SpawnGuard.Listing.Printer
import SpawnGuard.Proofs.PrintedWords

/-!
The words on the lines of a printed body. An operand in quotes may have a quote inside: the words
then are those of the operand cut at that quote, and those of what it spills behind it.
-/
namespace SpawnGuard

namespace Listing

/-- A text up to its first double quote. -/
def cutText (text : String) : String := String.ofList (text.toList.takeWhile (· ≠ '"'))

/-- What a text between quotes leaves behind the quote that ends it. -/
def spill (text : String) : List Char := ((text.toList ++ ['"']).dropWhile (· ≠ '"')).tail

theorem append_quote_eq (text : String) :
    text.toList ++ ['"'] = (cutText text).toList ++ '"' :: spill text := by
  unfold cutText spill
  rw [String.toList_ofList]
  induction text.toList with
  | nil => rfl
  | cons c rest ih =>
    by_cases quote : c = '"'
    · simp [quote]
    · simpa [quote] using ih

theorem plain_cutText (text : String) : '"' ∉ (cutText text).toList := by
  intro inside
  rw [cutText, String.toList_ofList] at inside
  simpa using List.mem_takeWhile_imp inside

theorem cutText_eq_self {text : String} : cutText text = text ↔ '"' ∉ text.toList := by
  constructor
  · intro same
    rw [← same]
    exact plain_cutText text
  · intro plain
    have all : text.toList.takeWhile (· ≠ '"') = text.toList := by
      refine List.takeWhile_eq_self_iff.mpr fun c inside => ?_
      simpa using fun quote : c = '"' => plain (quote ▸ inside)
    rw [cutText, all, String.ofList_toList]

theorem spill_of_plain {text : String} (plain : '"' ∉ text.toList) : spill text = [] := by
  have parts := append_quote_eq text
  rw [cutText_eq_self.mpr plain, List.append_cancel_left_eq] at parts
  exact (List.cons.inj parts).2.symm

end Listing

namespace Operand

variable {ℓ : Type}

/-- The text of an operand that is printed in quotes. -/
def quoted? : Operand ℓ → Option String
  | field name => some name
  | method signature => some signature
  | _ => Option.none

theorem quoted?_map {κ : Type} (rename : ℓ → κ) (operand : Operand ℓ) :
    (operand.map rename).quoted? = operand.quoted? := by
  cases operand <;> rfl

def cut : Operand ℓ → Operand ℓ
  | field name => field (Listing.cutText name)
  | method signature => method (Listing.cutText signature)
  | operand => operand

def spill (operand : Operand ℓ) : List Char :=
  match operand.quoted? with
  | some text => Listing.spill text
  | Option.none => []

/-- The words an operand is printed as. -/
def words : Operand Label → List Listing.Word
  | none => []
  | int value => [(toString value.toInt).toList]
  | field name => [(Listing.cutText name).toList]
  | method signature => [(Listing.cutText signature).toList]
  | label target => [target.text.toList]

end Operand

/-- The texts that are printed in quotes. -/
def Body.texts (body : Body) : List String :=
  body.name :: body.code.filterMap (·.operand.quoted?)

namespace Listing

private theorem isBare_of_isDigit {c : Char} (digit : c.isDigit = true) : isBare c = true := by
  have range : 48 ≤ c.toNat ∧ c.toNat ≤ 57 := by
    simpa [Char.isDigit, UInt32.le_iff_toNat_le] using digit
  refine isBare_iff.mpr ⟨?_, ?_, ?_, ?_⟩
  · simp only [Text.isBlank, Bool.or_eq_false_iff, Bool.and_eq_false_iff, decide_eq_false_iff_not,
      beq_eq_false_iff_ne]
    omega
  all_goals
    rintro rfl
    revert digit
    decide

private theorem bare_cons {c : Char} {word : Word} (first : isBare c = true) (bare : Bare word) :
    Bare (c :: word) where
  written := List.cons_ne_nil c word
  plain := List.forall_mem_cons.mpr ⟨first, bare.plain⟩

private theorem bare_digits (number : Nat) : Bare (Nat.toDigits 10 number) where
  written := Nat.toDigits_ne_nil
  plain _ inside := isBare_of_isDigit (Nat.isDigit_of_mem_toDigits (by decide) (by decide) inside)

theorem toList_text (label : Label) : label.text.toList = 'L' :: Nat.toDigits 10 label.id := by
  rw [Label.text, String.toList_append, Nat.toString_eq_repr, Nat.toList_repr]
  rfl

theorem bare_text (label : Label) : Bare label.text.toList := by
  rw [toList_text]
  exact bare_cons (by decide) (bare_digits label.id)

theorem bare_int (value : Int32) : Bare (toString value.toInt).toList := by
  rw [Int.toString_eq_repr, Int.repr_eq_if]
  split
  · rw [Nat.toList_repr]
    exact bare_digits _
  · rw [String.toList_append, Nat.toList_repr]
    exact bare_cons (by decide) (bare_digits _)

theorem bare_mnemonic (op : Opcode) : Bare op.mnemonic.toList where
  written := by cases op <;> decide
  plain := List.all_eq_true.mp (by cases op <;> decide)

theorem readWords?_label (label : Label) :
    readWords? (label.text ++ ":").toList = some [label.text.toList ++ [':']] := by
  have bare := bare_text label
  have colon : Bare (label.text.toList ++ [':']) := by
    refine ⟨by simp, List.forall_mem_append.mpr ⟨bare.plain, ?_⟩⟩
    exact List.forall_mem_singleton.mpr (by decide)
  rw [String.toList_append]
  exact readWords?_word colon

theorem readWords?_nil : readWords? [] = some [] := by
  simp [readWords?, stripComment, words?]

private theorem toList_pair (first second : String) :
    (s!"{first} {second}").toList = first.toList ++ ' ' :: second.toList := by
  simp only [String.toList_append, List.append_assoc]
  rfl

private theorem toList_quote (first text : String) :
    (s!"{first} \"{text}\"").toList = first.toList ++ ' ' :: '"' :: (text.toList ++ ['"']) := by
  simp only [String.toList_append, List.append_assoc]
  rfl

private theorem readWords?_pair {first second : Word} (bare : Bare first)
    (other : Bare second) : readWords? (first ++ ' ' :: second) = some [first, second] := by
  rw [readWords?_space bare, readWords?_word other]
  rfl

private theorem readWords?_quote {first : Word} (bare : Bare first) (text : String) :
    readWords? (first ++ ' ' :: '"' :: (text.toList ++ ['"'])) =
      (readWords? (spill text)).map ([first, (cutText text).toList] ++ ·) := by
  rw [append_quote_eq, readWords?_space bare, ← List.cons_append,
    readWords?_quoted (plain_cutText text), Option.map_map]
  rfl

theorem readWords?_instruction (ins : Instruction Label) :
    readWords? ("    " ++ ins.text).toList =
      (readWords? ins.operand.spill).map
        ((ins.opcode.mnemonic.toList :: ins.operand.words) ++ ·) := by
  have indented : readWords? ("    " ++ ins.text).toList = readWords? ins.text.toList := by
    rw [String.toList_append]
    change readWords? (' ' :: ' ' :: ' ' :: ' ' :: ins.text.toList) = _
    simp only [readWords?_indented]
  rw [indented]
  obtain ⟨op, operand, labels⟩ := ins
  have bare := bare_mnemonic op
  simp only [Instruction.text, Operand.spill, Operand.quoted?]
  cases operand with
  | none =>
    rw [readWords?_word bare, readWords?_nil]
    rfl
  | int value =>
    rw [readWords?_nil, toList_pair]
    exact readWords?_pair bare (bare_int value)
  | field name =>
    rw [toList_quote]
    exact readWords?_quote bare name
  | method signature =>
    rw [toList_quote]
    exact readWords?_quote bare signature
  | label target =>
    rw [readWords?_nil, toList_pair]
    exact readWords?_pair bare (bare_text target)

private theorem toList_methodLine (name : String) :
    (s!".method \"{name}\"").toList =
      ".method".toList ++ ' ' :: '"' :: (name.toList ++ ['"']) := by
  simp only [String.toList_append, List.append_assoc]
  rfl

private theorem bare_methodWord : Bare ".method".toList where
  written := by decide
  plain := List.all_eq_true.mp (by decide)

theorem readWords?_method (name : String) :
    readWords? (s!".method \"{name}\"").toList =
      (readWords? (spill name)).map ([".method".toList, (cutText name).toList] ++ ·) := by
  rw [toList_methodLine]
  exact readWords?_quote bare_methodWord name

/-- A line that is found again when lines are joined and cut. -/
private structure Fits (line : List Char) : Prop where
  single : '\n' ∉ line
  last : line.getLast? ≠ some '\r'

private theorem Fits.append {start line : List Char} (first : Fits start) (fits : Fits line) :
    Fits (start ++ line) where
  single := by simp [first.single, fits.single]
  last := by
    rw [List.getLast?_append]
    cases last : line.getLast? with
    | none => exact first.last
    | some c => exact fun same => fits.last (last.trans same)

private theorem Bare.fits {word : Word} (bare : Bare word) : Fits word where
  single inside := absurd (bare.plain _ inside) (by decide)
  last last := absurd (bare.plain _ (List.mem_of_getLast? last)) (by decide)

private theorem fits_quote {first : Word} {text : String} (bare : Bare first)
    (oneLine : '\n' ∉ text.toList) : Fits (first ++ ' ' :: '"' :: (text.toList ++ ['"'])) := by
  refine bare.fits.append ⟨by simp [oneLine], ?_⟩
  rw [← List.cons_append, ← List.cons_append, List.getLast?_concat]
  decide

private theorem fits_pair {first second : Word} (bare : Bare first) (other : Bare second) :
    Fits (first ++ ' ' :: second) := by
  have blank : Fits [' '] := ⟨by decide, by decide⟩
  exact bare.fits.append (blank.append other.fits)

private theorem fits_instruction {ins : Instruction Label}
    (oneLine : ∀ text ∈ ins.operand.quoted?, '\n' ∉ text.toList) : Fits ins.text.toList := by
  obtain ⟨op, operand, labels⟩ := ins
  have bare := bare_mnemonic op
  simp only [Instruction.text]
  cases operand with
  | none => exact bare.fits
  | int value =>
    rw [toList_pair]
    exact fits_pair bare (bare_int value)
  | field name =>
    rw [toList_quote]
    exact fits_quote bare (oneLine name rfl)
  | method signature =>
    rw [toList_quote]
    exact fits_quote bare (oneLine signature rfl)
  | label target =>
    rw [toList_pair]
    exact fits_pair bare (bare_text target)

/-- The lines of a printed body are those it was printed in. -/
theorem lines_print {body : Body} (oneLine : ∀ text ∈ body.texts, '\n' ∉ text.toList) :
    lines (print body).toList = (bodyLines body).map String.toList := by
  have joined : (print body).toList =
      ((bodyLines body).map String.toList).flatMap (· ++ ['\n']) := by
    rw [print, toList_join_lines, List.flatMap_map]
  have indent : Fits "    ".toList := ⟨by decide, by decide⟩
  have colon : Fits ":".toList := ⟨by decide, by decide⟩
  have fit : ∀ line ∈ bodyLines body, Fits line.toList := by
    refine List.forall_mem_cons.mpr ⟨?_, fun line member => ?_⟩
    · rw [toList_methodLine]
      exact fits_quote bare_methodWord (oneLine body.name List.mem_cons_self)
    · obtain ⟨ins, inside, printed⟩ := List.mem_flatMap.mp member
      rcases List.mem_append.mp printed with labelled | last
      · obtain ⟨label, _, rfl⟩ := List.mem_map.mp labelled
        rw [String.toList_append]
        exact (bare_text label).fits.append colon
      · cases List.mem_singleton.mp last
        rw [String.toList_append]
        refine indent.append (fits_instruction fun text quoted => oneLine text ?_)
        exact List.mem_cons_of_mem _ (List.mem_filterMap.mpr ⟨ins, inside, quoted⟩)
  rw [joined]
  refine lines_flatMap fun text listed => ?_
  obtain ⟨line, member, rfl⟩ := List.mem_map.mp listed
  exact ⟨(fit line member).single, (fit line member).last⟩

end Listing

end SpawnGuard
