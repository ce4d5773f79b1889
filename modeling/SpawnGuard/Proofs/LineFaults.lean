import SpawnGuard.Proofs.PrintedWords
import SpawnGuard.Proofs.Sentences

/-!
What can be wrong with a line of a listing, and in which order it is looked for. A quote may be
left open, and beside what the words of a line mean stands what makes them mean nothing; the words
of a line are refused for exactly one cause if they mean nothing or define a label again.
-/
namespace SpawnGuard
open Text

def Opcode.operandCount (op : Opcode) : Nat := if op.kind = .none then 0 else 1

namespace Listing

/-- Somewhere behind white space, words and quoted text a quote is opened and not closed. -/
inductive Unclosed : List Char → Prop where
  | blank {c : Char} {rest : List Char} (blank : isBlank c = true) (later : Unclosed rest) :
    Unclosed (c :: rest)
  | quoted {text rest : List Char} (plain : '"' ∉ text) (later : Unclosed rest) :
    Unclosed ('"' :: text ++ '"' :: rest)
  | word {c : Char} {word rest : List Char} (quote : c ≠ '"')
    (run : ∀ d ∈ c :: word, isBlank d = false) (behind : ∀ d ∈ rest.head?, isBlank d = true)
    (later : Unclosed rest) : Unclosed (c :: word ++ rest)
  | opened {rest : List Char} (never : '"' ∉ rest) : Unclosed ('"' :: rest)

/-- Why an operation takes none of its operands. -/
inductive Refuses (op : Opcode) : List Word → Cause → Prop where
  | count {operands : List Word} (wrong : operands.length ≠ op.operandCount) :
    Refuses op operands (.wrongOperandCount op.mnemonic op.operandCount operands.length)
  | number {word : Word} {fault : NumberFault} (kind : op.kind = .int)
    (unreadable : readInt word = .error fault) :
    Refuses op [word] (.parseInt (String.ofList word) fault)

/-- Why words are no operation, the mnemonic being looked at before the operands. -/
inductive NoOperation : List Word → Cause → Prop where
  | opcode {word : Word} {operands : List Word}
    (unknown : ∀ op : Opcode, word.map Char.toLower ≠ op.mnemonic.toList.map Char.toLower) :
    NoOperation (word :: operands) (.unknownOpcode (String.ofList word))
  | operands {word : Word} {op : Opcode} {operands : List Word} {cause : Cause}
    (spelt : word.map Char.toLower = op.mnemonic.toList.map Char.toLower)
    (refuses : Refuses op operands cause) : NoOperation (word :: operands) cause

/-- Labels that differ from each other and are not known yet. -/
def New (known : String → Prop) (names : List String) : Prop :=
  names.Nodup ∧ ∀ name ∈ names, ¬ known name

/-- What is wrong with the words of a line, given which labels are known before it. The labels in
front are looked at one by one, and what is behind them only if all are new. -/
inductive Wrong (known : String → Prop) : List Word → Cause → Prop where
  | method {operands : List Word} (count : operands.length ≠ 1) :
    Wrong known (methodWord :: operands) (.wrongOperandCount ".method" 1 operands.length)
  | redefined {names : List String} {name : String} {rest : List Word} (new : New known names)
    (again : known name ∨ name ∈ names) :
    Wrong known (names.map labelWord ++ labelWord name :: rest) (.duplicateLabel name)
  | operation {names : List String} {rest : List Word} {cause : Cause} (new : New known names)
    (code : (names.map labelWord ++ rest).head? ≠ some methodWord)
    (behind : ∀ word ∈ rest.head?, ∀ name, word ≠ labelWord name)
    (none : NoOperation rest cause) :
    Wrong known (names.map labelWord ++ rest) cause

/-- What is wrong with a line, an open quote before all else. -/
inductive Faulty (known : String → Prop) (line : List Char) : Cause → Prop where
  | unterminated (opened : Unclosed (stripComment false line)) :
    Faulty known line .unterminatedString
  | words {words : List Word} {cause : Cause} (closed : readWords? line = some words)
    (wrong : Wrong known words cause) : Faulty known line cause

variable {defined names : List String} {words rest operands : List Word} {word : Word}
  {op : Opcode} {cause : Cause} {name : String}

theorem words?_eq_none {line : List Char} : words? line = none ↔ Unclosed line := by
  constructor
  · intro failed
    fun_induction words? line with
    | case1 => cases failed
    | case2 c rest blank ih => exact .blank blank (ih failed)
    | case3 rest closed _ ih =>
      obtain ⟨text, behind, rfl, plain⟩ := List.eq_append_cons_of_mem closed
      refine .quoted plain ?_
      have inside : ∀ c ∈ text, decide (c ≠ '"') = true := by
        intro c member
        simpa using fun same : c = '"' => plain (same ▸ member)
      have later := ih (Option.map_eq_none_iff.mp failed)
      rw [List.dropWhile_append_of_pos inside] at later
      simpa using later
    | case4 rest never _ => exact .opened never
    | case5 c rest visible quote ih =>
      rw [← List.takeWhile_append_dropWhile (p := (!isBlank ·)) (l := rest)]
      refine .word quote ?_ ?_ (ih (Option.map_eq_none_iff.mp failed))
      · rw [List.forall_mem_cons]
        refine ⟨by simpa using visible, fun d member => ?_⟩
        simpa using List.mem_takeWhile_imp member
      · intro d first
        have stops := List.head?_dropWhile_not (!isBlank ·) rest
        rw [Option.mem_def.mp first] at stops
        simpa using stops
  · intro unclosed
    induction unclosed with
    | blank blank _ ih => rw [words?_blank blank, ih]
    | quoted plain _ ih => rw [words?_quoted plain, ih, Option.map_none]
    | word quote run behind _ ih => rw [words?_run quote run behind, ih, Option.map_none]
    | opened never => rw [words?, if_neg (by decide), if_pos rfl, if_neg never]

theorem readOperand_of_count_ne (wrong : operands.length ≠ op.operandCount) :
    readOperand op operands =
      .error (.wrongOperandCount op.mnemonic op.operandCount operands.length) := by
  unfold readOperand
  unfold Opcode.operandCount at wrong ⊢
  generalize op.kind = kind at wrong ⊢
  match kind, operands, wrong with
  | .none, [], wrong => exact absurd rfl wrong
  | .none, _ :: _, _ => rfl
  | .int, [_], wrong | .field, [_], wrong | .method, [_], wrong | .label, [_], wrong =>
    exact absurd rfl wrong
  | .int, [], _ | .field, [], _ | .method, [], _ | .label, [], _ => rfl
  | .int, _ :: _ :: _, _ | .field, _ :: _ :: _, _ | .method, _ :: _ :: _, _
  | .label, _ :: _ :: _, _ => rfl

theorem readOperand_eq_error :
    readOperand op operands = .error cause ↔ Refuses op operands cause := by
  constructor
  · intro failed
    by_cases count : operands.length = op.operandCount
    · unfold Opcode.operandCount at count
      cases kind : op.kind with
      | none =>
        rw [if_pos kind] at count
        cases List.length_eq_zero_iff.mp count
        simp [readOperand, kind] at failed
      | int =>
        rw [if_neg (by simp [kind])] at count
        obtain ⟨word, rfl⟩ := List.length_eq_one_iff.mp count
        cases read : readInt word with
        | ok value => simp [readOperand, kind, read] at failed
        | error fault =>
          simp only [readOperand, kind, read, Except.error.injEq] at failed
          exact failed ▸ .number kind read
      | field | method | label =>
        rw [if_neg (by simp [kind])] at count
        obtain ⟨word, rfl⟩ := List.length_eq_one_iff.mp count
        simp [readOperand, kind] at failed
    · rw [readOperand_of_count_ne count] at failed
      cases failed
      exact .count count
  · intro refuses
    cases refuses with
    | count wrong => exact readOperand_of_count_ne wrong
    | number kind unreadable => simp [readOperand, kind, unreadable]

theorem firstRedefined_eq_some :
    firstRedefined defined names = some name ↔
      ∃ early late, names = early ++ name :: late ∧ New (· ∈ defined) early ∧
        (name ∈ defined ∨ name ∈ early) := by
  induction names generalizing defined with
  | nil => simp [firstRedefined]
  | cons head others ih =>
    rw [firstRedefined]
    split
    · rename_i known
      constructor
      · rintro ⟨⟩
        exact ⟨[], others, rfl, ⟨List.nodup_nil, by simp⟩, .inl known⟩
      · rintro ⟨early, late, split, new, again⟩
        cases early with
        | nil => exact congrArg some (List.cons.inj split).1
        | cons first early =>
          obtain ⟨rfl, _⟩ := List.cons.inj split
          exact absurd known (new.2 head List.mem_cons_self)
    · rename_i unknown
      rw [ih]
      constructor
      · rintro ⟨early, late, rfl, new, again⟩
        refine ⟨head :: early, late, rfl, fresh_cons.mpr ⟨unknown, new⟩, ?_⟩
        simpa [or_assoc, or_left_comm] using again
      · rintro ⟨early, late, split, new, again⟩
        cases early with
        | nil =>
          obtain ⟨rfl, _⟩ := List.cons.inj split
          simp [unknown] at again
        | cons first early =>
          obtain ⟨rfl, rest⟩ := List.cons.inj split
          refine ⟨early, late, rest, (fresh_cons.mp new).2, ?_⟩
          simpa [or_assoc, or_left_comm] using again

theorem splitDefines_append (names : List String) (rest : List Word) :
    splitDefines (names.map labelWord ++ rest) =
      (names ++ (splitDefines rest).1, (splitDefines rest).2) := by
  induction names with
  | nil => rfl
  | cons name names ih =>
    have named : labelName? (labelWord name) = some name := labelName?_eq_some.mpr rfl
    simp [splitDefines, named, ih]

theorem labelName?_eq_none : labelName? word = none ↔ ∀ name, word ≠ labelWord name := by
  simp [Option.eq_none_iff_forall_ne_some, labelName?_eq_some]

theorem splitDefines_behind (words : List Word) :
    ∀ word ∈ (splitDefines words).2.head?, labelName? word = none := by
  induction words with
  | nil => simp [splitDefines]
  | cons word rest ih =>
    rw [splitDefines]
    cases named : labelName? word with
    | some label => exact ih
    | none => simpa using named

theorem readOperation_eq_error :
    readOperation words = .error cause ↔ NoOperation words cause := by
  constructor
  · intro failed
    cases words with
    | nil => cases failed
    | cons word operands =>
      unfold readOperation at failed
      cases spelt : Opcode.ofMnemonic? word with
      | none =>
        simp only [spelt] at failed
        cases failed
        refine .opcode fun op same => ?_
        rw [Opcode.ofMnemonic?_eq_some.mpr same] at spelt
        cases spelt
      | some op =>
        simp only [spelt] at failed
        cases taken : readOperand op operands with
        | error cause =>
          rw [taken] at failed
          cases failed
          exact .operands (Opcode.ofMnemonic?_eq_some.mp spelt) (readOperand_eq_error.mp taken)
        | ok operand =>
          rw [taken] at failed
          cases failed
  · intro none
    unfold readOperation
    cases none with
    | @opcode word operands unknown =>
      cases spelt : Opcode.ofMnemonic? word with
      | none => simp only [spelt]
      | some op => exact absurd (Opcode.ofMnemonic?_eq_some.mp spelt) (unknown op)
    | operands spelt refuses =>
      simp only [Opcode.ofMnemonic?_eq_some.mpr spelt, readOperand_eq_error.mpr refuses]
      rfl

/-- The words of a line are refused exactly for what is wrong with them. -/
theorem readStatement_eq_error :
    readStatement defined words = .error cause ↔ Wrong (· ∈ defined) words cause := by
  unfold readStatement
  constructor
  · intro failed
    split at failed
    · rename_i directive
      cases words with
      | nil => cases directive
      | cons word operands =>
        cases directive
        split at failed
        · cases failed
        · rename_i several
          cases failed
          refine .method fun one => ?_
          obtain ⟨name, rfl⟩ := List.length_eq_one_iff.mp one
          exact several name rfl
    · rename_i code
      have parts := splitDefines_eq words
      have behind := splitDefines_behind words
      generalize splitDefines words = split at parts behind failed
      obtain ⟨names, rest⟩ := split
      subst parts
      cases redefined : firstRedefined defined names with
      | some name =>
        simp only [redefined] at failed
        cases failed
        obtain ⟨early, late, rfl, new, again⟩ := firstRedefined_eq_some.mp redefined
        rw [List.map_append, List.map_cons, List.append_assoc, List.cons_append]
        exact .redefined new again
      | none =>
        simp only [redefined] at failed
        cases read : readOperation rest with
        | error cause =>
          rw [read] at failed
          cases failed
          exact .operation (firstRedefined_eq_none.mp redefined) code
            (fun word first => labelName?_eq_none.mp (behind word first))
            (readOperation_eq_error.mp read)
        | ok operation =>
          rw [read] at failed
          cases failed
  · intro wrong
    cases wrong with
    | @method operands count =>
      simp only [List.head?_cons, if_true, List.tail_cons]
      split
      · exact absurd rfl count
      · rfl
    | @redefined names name rest new again =>
      have code : (names.map labelWord ++ labelWord name :: rest).head? ≠ some methodWord := by
        cases names with
        | nil => simpa using labelWord_ne_methodWord name
        | cons first names => simpa using labelWord_ne_methodWord first
      have redefined :
          firstRedefined defined (names ++ name :: (splitDefines rest).1) = some name :=
        firstRedefined_eq_some.mpr ⟨names, _, rfl, new, again⟩
      have named : labelName? (labelWord name) = some name := labelName?_eq_some.mpr rfl
      rw [if_neg code, splitDefines_append, splitDefines, named]
      simp only [redefined]
    | @operation names rest _ new code behind none =>
      have plain : ∀ word ∈ rest.head?, labelName? word = .none :=
        fun word first => labelName?_eq_none.mpr (behind word first)
      rw [if_neg code, splitDefines_labels names plain]
      simp only [firstRedefined_eq_none.mpr new, readOperation_eq_error.mpr none]
      rfl

/-- What a line tells, if it has words and they mean something. -/
def Tells (line : List Char) (statement : Statement) : Prop :=
  ∃ words, readWords? line = some words ∧ words ≠ [] ∧ Means words statement

/-- A label that is defined on a line. -/
def Defines (line : List Char) (name : String) : Prop :=
  ∃ statement, Tells line statement ∧ name ∈ statement.defines

theorem Means.defines_eq {statement : Statement} (means : Means words statement) :
    statement.defines = (splitDefines words).1 := by
  cases means with
  | method name =>
    have other : labelName? methodWord = none :=
      labelName?_eq_none.mpr fun name same => labelWord_ne_methodWord name same.symm
    simp [splitDefines, other, Statement.defines]
  | labels names =>
    have split : splitDefines (names.map labelWord ++ []) = (names, []) :=
      splitDefines_labels names (by simp)
    rw [List.append_nil] at split
    rw [split]
    rfl
  | operation names spelt takes =>
    rw [splitDefines_labels names (by simpa using labelName?_of_spelt spelt)]
    rfl

/-- A line that is not at fault is blank, or tells something and defines only new labels. -/
theorem line_cases (defined : List String) (line : List Char) :
    (∃ cause, Faulty (· ∈ defined) line cause) ∨
      (∀ cause, ¬ Faulty (· ∈ defined) line cause) ∧
        (readWords? line = some [] ∨
          ∃ statement, Tells line statement ∧ Fresh defined statement.defines) := by
  by_cases fault : ∃ cause, Faulty (· ∈ defined) line cause
  · exact .inl fault
  · refine .inr ⟨not_exists.mp fault, ?_⟩
    cases closed : readWords? line with
    | none => exact absurd ⟨_, .unterminated (words?_eq_none.mp closed)⟩ fault
    | some words =>
      by_cases written : words = []
      · exact .inl (congrArg some written)
      · cases said : readStatement defined words with
        | error cause => exact absurd ⟨_, .words closed (readStatement_eq_error.mp said)⟩ fault
        | ok statement =>
          obtain ⟨means, fresh⟩ := (readStatement_eq_ok written).mp said
          exact .inr ⟨statement, ⟨words, closed, written, means⟩, fresh⟩

variable {number : Nat} {line : List Char} {later : List (List Char)} {statement : Statement}

theorem readStatements_of_faulty (faulty : Faulty (· ∈ defined) line cause) :
    readStatements defined number (line :: later) = .error ⟨number, cause⟩ := by
  unfold readStatements
  cases faulty with
  | unterminated opened =>
    have failed : readWords? line = none := words?_eq_none.mpr opened
    simp only [failed]
  | @words words _ closed wrong =>
    cases words with
    | nil => cases readStatement_eq_error.mpr wrong
    | cons word words => simp only [closed, readStatement_eq_error.mpr wrong]

theorem readStatements_of_blank (empty : readWords? line = some []) :
    readStatements defined number (line :: later) = readStatements defined (number + 1) later := by
  rw [readStatements]
  simp only [empty]

theorem readStatements_of_tells (tells : Tells line statement)
    (fresh : Fresh defined statement.defines) :
    readStatements defined number (line :: later) =
      (readStatements (statement.defines.reverse ++ defined) (number + 1) later).map
        (⟨number, statement⟩ :: ·) := by
  obtain ⟨words, closed, written, means⟩ := tells
  have said := (readStatement_eq_ok written).mpr ⟨means, fresh⟩
  rw [readStatements]
  cases words with
  | nil => exact absurd rfl written
  | cons word words => simp only [closed, said]

theorem Faulty.unique {other : Cause} (faulty : Faulty (· ∈ defined) line cause)
    (again : Faulty (· ∈ defined) line other) : other = cause := by
  have one : readStatements defined 1 [line] = .error ⟨1, cause⟩ := readStatements_of_faulty faulty
  have two : readStatements defined 1 [line] = .error ⟨1, other⟩ := readStatements_of_faulty again
  cases two.symm.trans one
  rfl

theorem Tells.unique {other : Statement} (tells : Tells line statement)
    (fresh : Fresh defined statement.defines) (again : Tells line other) : other = statement := by
  obtain ⟨words, closed, written, means⟩ := tells
  obtain ⟨_, same, _, meansOther⟩ := again
  cases closed.symm.trans same
  have said := (readStatement_eq_ok written).mpr ⟨means, fresh⟩
  rw [means.defines_eq, ← meansOther.defines_eq] at fresh
  have saidOther := (readStatement_eq_ok written).mpr ⟨meansOther, fresh⟩
  cases saidOther.symm.trans said
  rfl

theorem not_tells_of_blank (empty : readWords? line = some []) : ¬ Tells line statement := by
  rintro ⟨words, closed, written, _⟩
  cases closed.symm.trans empty
  exact written rfl

theorem defines_of_blank (empty : readWords? line = some []) : Defines line name ↔ name ∈ [] := by
  simp [Defines, not_tells_of_blank empty]

theorem defines_of_tells (tells : Tells line statement)
    (fresh : Fresh defined statement.defines) :
    Defines line name ↔ name ∈ statement.defines := by
  constructor
  · rintro ⟨other, again, member⟩
    exact tells.unique fresh again ▸ member
  · intro member
    exact ⟨statement, tells, member⟩

theorem readStatements_cons_eq_ok {numbered : List Numbered}
    (done : readStatements defined number (line :: later) = .ok numbered) :
    (readWords? line = some [] ∧ readStatements defined (number + 1) later = .ok numbered) ∨
      ∃ statement rest, Tells line statement ∧ Fresh defined statement.defines ∧
        readStatements (statement.defines.reverse ++ defined) (number + 1) later = .ok rest ∧
          numbered = ⟨number, statement⟩ :: rest := by
  rcases line_cases defined line with
    ⟨cause, faulty⟩ | ⟨_, empty | ⟨statement, tells, fresh⟩⟩
  · rw [readStatements_of_faulty faulty] at done
    cases done
  · rw [readStatements_of_blank empty] at done
    exact .inl ⟨empty, done⟩
  · rw [readStatements_of_tells tells fresh] at done
    obtain ⟨rest, read, rfl⟩ := map_eq_ok done
    exact .inr ⟨statement, rest, tells, fresh, read, rfl⟩

end Listing

end SpawnGuard
