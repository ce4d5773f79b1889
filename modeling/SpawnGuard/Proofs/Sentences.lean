import SpawnGuard.Proofs.Answers
import SpawnGuard.Proofs.FirstAppearance

/-!
The grammar of listings, line by line: what the words of a line mean. A line is read exactly when
it means something and defines no label again.
-/
namespace SpawnGuard

namespace Opcode

theorem mnemonic_injective {op other : Opcode} (same : op.mnemonic = other.mnemonic) :
    op = other := by
  have different : (all.map mnemonic).Nodup := by decide
  exact List.inj_on_of_nodup_map different (mem_all op) (mem_all other) same

theorem lower_mnemonic (op : Opcode) :
    op.mnemonic.toList.map Char.toLower = op.mnemonic.toList := by
  cases op <;> decide

theorem ofMnemonic?_eq_some {word : List Char} {op : Opcode} :
    ofMnemonic? word = some op ↔
      word.map Char.toLower = op.mnemonic.toList.map Char.toLower := by
  have spells {other : Opcode} (found : ofMnemonic? word = some other) :
      other.mnemonic.toList = word.map Char.toLower := by
    have same := List.find?_some found
    exact beq_iff_eq.mp same
  rw [lower_mnemonic]
  constructor
  · intro found
    exact (spells found).symm
  · intro spelt
    cases found : ofMnemonic? word with
    | none =>
      have different := List.find?_eq_none.mp found op (mem_all op)
      exact absurd (beq_iff_eq.mpr spelt.symm) different
    | some other =>
      have same := String.toList_injective ((spells found).trans spelt)
      exact congrArg some (mnemonic_injective same)

end Opcode

namespace Listing

def labelWord (name : String) : Word := name.toList ++ [':']

/-- The operand an operation takes, from the words after it. -/
inductive Takes (op : Opcode) : List Word → Operand String → Prop where
  | none (kind : op.kind = .none) : Takes op [] .none
  | int {word : Word} {value : Int32} (kind : op.kind = .int) (number : readInt word = .ok value) :
    Takes op [word] (.int value)
  | field (word : Word) (kind : op.kind = .field) : Takes op [word] (.field (String.ofList word))
  | method (word : Word) (kind : op.kind = .method) : Takes op [word] (.method (String.ofList word))
  | label (word : Word) (kind : op.kind = .label) : Takes op [word] (.label (String.ofList word))

/-- What the words of a line mean: a name for the method, or any number of labels with nothing or
one operation behind them, its mnemonic in letters of any case. -/
inductive Means : List Word → Statement → Prop where
  | method (name : Word) : Means [methodWord, name] (.method (String.ofList name))
  | labels (names : List String) : Means (names.map labelWord) (.code names none)
  | operation (names : List String) {word : Word} {op : Opcode} {operands : List Word}
    {operand : Operand String}
    (spelt : word.map Char.toLower = op.mnemonic.toList.map Char.toLower)
    (takes : Takes op operands operand) :
    Means (names.map labelWord ++ word :: operands) (.code names (some ⟨op, operand⟩))

theorem labelName?_eq_some {word : Word} {name : String} :
    labelName? word = some name ↔ word = labelWord name := by
  unfold labelName? labelWord
  constructor
  · intro named
    split at named
    · rename_i colon
      cases named
      rw [String.toList_ofList]
      exact (List.dropLast_append_getLast? ':' colon).symm
    · cases named
  · rintro rfl
    simp

theorem labelName?_of_spelt {word : Word} {op : Opcode}
    (spelt : word.map Char.toLower = op.mnemonic.toList.map Char.toLower) :
    labelName? word = none := by
  unfold labelName?
  rw [if_neg]
  intro colon
  have last : (op.mnemonic.toList.map Char.toLower).getLast? = some ':' := by
    rw [← spelt, List.getLast?_map, colon]
    rfl
  revert last
  cases op <;> decide

theorem splitDefines_eq (words : List Word) :
    words = (splitDefines words).1.map labelWord ++ (splitDefines words).2 := by
  induction words with
  | nil => rfl
  | cons word rest ih =>
    unfold splitDefines
    cases named : labelName? word with
    | none => rfl
    | some name =>
      rw [List.map_cons, List.cons_append, ← ih, ← labelName?_eq_some.mp named]

theorem splitDefines_labels (names : List String) {rest : List Word}
    (behind : ∀ word ∈ rest.head?, labelName? word = none) :
    splitDefines (names.map labelWord ++ rest) = (names, rest) := by
  induction names with
  | nil =>
    cases rest with
    | nil => rfl
    | cons word rest =>
      have stop := behind word rfl
      simp [splitDefines, stop]
  | cons name names ih =>
    have named : labelName? (labelWord name) = some name := labelName?_eq_some.mpr rfl
    simp [splitDefines, named, ih]

theorem readOperand_eq_ok {op : Opcode} {operands : List Word} {operand : Operand String} :
    readOperand op operands = .ok operand ↔ Takes op operands operand := by
  constructor
  · intro done
    unfold readOperand at done
    split at done
    · rename_i kind
      cases done
      exact .none kind
    · cases done
    · rename_i word kind
      split at done
      · rename_i number
        cases done
        exact .int kind number
      · cases done
    · rename_i word kind
      cases done
      exact .field word kind
    · rename_i word kind
      cases done
      exact .method word kind
    · rename_i word kind
      cases done
      exact .label word kind
    · cases done
  · intro takes
    unfold readOperand
    cases takes with
    | none kind => rw [kind]
    | int kind number => rw [kind]; simp only [number]
    | field word kind => rw [kind]
    | method word kind => rw [kind]
    | label word kind => rw [kind]

theorem firstRedefined_eq_none {defined names : List String} :
    firstRedefined defined names = none ↔ Fresh defined names := by
  induction names generalizing defined with
  | nil => simp [firstRedefined, Fresh]
  | cons name rest ih =>
    rw [firstRedefined, fresh_cons]
    split
    · rename_i again
      simp [again]
    · rename_i fresh
      simp [fresh, ih]

theorem readOperation_means {names : List String} {words : List Word}
    {operation : Option Operation} (done : readOperation words = .ok operation) :
    Means (names.map labelWord ++ words) (.code names operation) := by
  cases words with
  | nil =>
    cases done
    rw [List.append_nil]
    exact .labels names
  | cons word operands =>
    unfold readOperation at done
    cases spelt : Opcode.ofMnemonic? word with
    | none =>
      simp only [spelt] at done
      cases done
    | some op =>
      simp only [spelt] at done
      cases taken : readOperand op operands with
      | error cause =>
        rw [taken] at done
        cases done
      | ok operand =>
        rw [taken] at done
        cases done
        exact .operation names (Opcode.ofMnemonic?_eq_some.mp spelt) (readOperand_eq_ok.mp taken)

theorem readOperation_of_takes {word : Word} {op : Opcode} {operands : List Word}
    {operand : Operand String}
    (spelt : word.map Char.toLower = op.mnemonic.toList.map Char.toLower)
    (takes : Takes op operands operand) :
    readOperation (word :: operands) = .ok (some ⟨op, operand⟩) := by
  unfold readOperation
  simp only [Opcode.ofMnemonic?_eq_some.mpr spelt, readOperand_eq_ok.mpr takes]
  rfl

theorem labelWord_ne_methodWord (name : String) : labelWord name ≠ methodWord := by
  intro same
  have last := congrArg List.getLast? same
  unfold labelWord methodWord at last
  rw [List.getLast?_concat] at last
  revert last
  decide

theorem ne_methodWord_of_spelt {word : Word} {op : Opcode}
    (spelt : word.map Char.toLower = op.mnemonic.toList.map Char.toLower) :
    word ≠ methodWord := by
  rintro rfl
  revert spelt
  cases op <;> decide

theorem readStatement_of_code {defined names : List String} {rest : List Word}
    {operation : Option Operation} (plain : (names.map labelWord ++ rest).head? ≠ some methodWord)
    (behind : ∀ word ∈ rest.head?, labelName? word = none)
    (fresh : firstRedefined defined names = none) (done : readOperation rest = .ok operation) :
    readStatement defined (names.map labelWord ++ rest) = .ok (.code names operation) := by
  unfold readStatement
  rw [if_neg plain, splitDefines_labels names behind]
  simp only [fresh, done]
  rfl

/-- A line with words is read exactly when it means something and defines no label twice or
again. -/
theorem readStatement_eq_ok {defined : List String} {words : List Word} {statement : Statement}
    (written : words ≠ []) :
    readStatement defined words = .ok statement ↔
      Means words statement ∧ Fresh defined statement.defines := by
  constructor
  · intro done
    unfold readStatement at done
    split at done
    · rename_i directive
      split at done
      · rename_i name only
        cases done
        cases words with
        | nil => cases directive
        | cons word rest =>
          cases directive
          cases only
          exact ⟨.method name, by simp [Fresh, Statement.defines]⟩
      · cases done
    · -- How the words were split is all that is needed of the split.
      have parts := splitDefines_eq words
      generalize splitDefines words = split at parts done
      obtain ⟨names, rest⟩ := split
      cases redefined : firstRedefined defined names with
      | some name =>
        simp only [redefined] at done
        cases done
      | none =>
        simp only [redefined] at done
        cases read : readOperation rest with
        | error cause =>
          rw [read] at done
          cases done
        | ok operation =>
          rw [read] at done
          cases done
          rw [parts]
          exact ⟨readOperation_means read, firstRedefined_eq_none.mp redefined⟩
  · rintro ⟨means, fresh⟩
    have fresh := firstRedefined_eq_none.mpr fresh
    cases means with
    | method name => rfl
    | labels names =>
      have plain : (names.map labelWord ++ []).head? ≠ some methodWord := by
        cases names with
        | nil => exact absurd rfl written
        | cons name names => simpa using labelWord_ne_methodWord name
      have empty : readOperation [] = .ok none := rfl
      have read := readStatement_of_code plain (by simp) fresh empty
      rwa [List.append_nil] at read
    | operation names spelt takes =>
      refine readStatement_of_code ?_ ?_ fresh (readOperation_of_takes spelt takes)
      · cases names with
        | nil => simpa using ne_methodWord_of_spelt spelt
        | cons name names => simpa using labelWord_ne_methodWord name
      · simpa using labelName?_of_spelt spelt

/-- The statements of a listing, given by its lines: every string is closed, lines without words
are left out, and all others mean something. -/
inductive Sentences : List (List Char) → List Statement → Prop where
  | nil : Sentences [] []
  | blank {line : List Char} {lines : List (List Char)} {statements : List Statement}
    (empty : readWords? line = some []) (rest : Sentences lines statements) :
    Sentences (line :: lines) statements
  | line {line : List Char} {words : List Word} {statement : Statement}
    {lines : List (List Char)} {statements : List Statement}
    (closed : readWords? line = some words) (written : words ≠ [])
    (means : Means words statement) (rest : Sentences lines statements) :
    Sentences (line :: lines) (statement :: statements)

/-- Lines are read exactly when they are sentences that define no label twice or again. -/
theorem readStatements_eq_ok {defined : List String} {number : Nat} {lines : List (List Char)}
    {statements : List Statement} :
    (∃ numbered, readStatements defined number lines = .ok numbered ∧
        numbered.map (·.statement) = statements) ↔
      Sentences lines statements ∧ Fresh defined (statements.flatMap Statement.defines) := by
  induction lines generalizing defined number statements with
  | nil =>
    constructor
    · rintro ⟨_, ⟨⟩, rfl⟩
      exact ⟨.nil, by simp [Fresh]⟩
    · rintro ⟨⟨⟩, _⟩
      exact ⟨[], rfl, rfl⟩
  | cons line rest ih =>
    unfold readStatements
    cases closed : readWords? line with
    | none =>
      constructor
      · rintro ⟨_, ⟨⟩, _⟩
      · rintro ⟨sentences, _⟩
        cases sentences with
        | blank empty => cases closed.symm.trans empty
        | line again => cases closed.symm.trans again
    | some words =>
      cases words with
      | nil =>
        simp only
        rw [ih]
        refine and_congr_left fun _ => ⟨.blank closed, fun sentences => ?_⟩
        cases sentences with
        | blank _ rest => exact rest
        | line again written =>
          cases closed.symm.trans again
          exact absurd rfl written
      | cons word words =>
        simp only
        have written : word :: words ≠ [] := List.cons_ne_nil word words
        constructor
        · rintro ⟨numbered, done, rfl⟩
          cases said : readStatement defined (word :: words) with
          | error cause =>
            rw [said] at done
            cases done
          | ok statement =>
            obtain ⟨means, fresh⟩ := (readStatement_eq_ok written).mp said
            rw [said] at done
            obtain ⟨later, read, rfl⟩ := map_eq_ok done
            obtain ⟨sentences, others⟩ := ih.mp ⟨later, read, rfl⟩
            exact ⟨.line closed written means sentences, fresh_append.mpr ⟨fresh, others⟩⟩
        · rintro ⟨sentences, fresh⟩
          cases sentences with
          | blank empty => cases closed.symm.trans empty
          | @line _ _ statement _ _ again _ means sentences =>
            cases closed.symm.trans again
            obtain ⟨here, others⟩ := fresh_append.mp fresh
            have said := (readStatement_eq_ok written).mpr ⟨means, here⟩
            rw [said]
            obtain ⟨later, read, rfl⟩ : ∃ numbered,
                readStatements (statement.defines.reverse ++ defined) (number + 1) rest =
                  .ok numbered ∧ numbered.map (·.statement) = _ :=
              ih.mpr ⟨sentences, others⟩
            simp only [read]
            exact ⟨_, rfl, rfl⟩

end Listing

end SpawnGuard
