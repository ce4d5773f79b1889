import SpawnGuard.Proofs.PrintedLines
import SpawnGuard.Proofs.PrintedLiterals
import SpawnGuard.Proofs.Renumbering
import SpawnGuard.Proofs.Sentences

/-!
Printed bodies as sentences: their lines mean the statements that the body consists of, its texts
cut at their first quote, as long as no text spills words behind that quote.
-/
namespace SpawnGuard

namespace Operand

variable {ℓ : Type}

theorem kind_cut (operand : Operand ℓ) : operand.cut.kind = operand.kind := by
  cases operand <;> rfl

theorem quoted?_cut (operand : Operand ℓ) :
    operand.cut.quoted? = operand.quoted?.map Listing.cutText := by
  cases operand <;> rfl

theorem cut_eq_self {operand : Operand ℓ} :
    operand.cut = operand ↔ ∀ text ∈ operand.quoted?, '"' ∉ text.toList := by
  cases operand <;> simp [cut, quoted?, Listing.cutText_eq_self]

end Operand

namespace Instruction

variable {ℓ : Type}

def cut (ins : Instruction ℓ) : Instruction ℓ := { ins with operand := ins.operand.cut }

theorem branchTarget_cut (ins : Instruction ℓ) : ins.cut.branchTarget? = ins.branchTarget? := by
  obtain ⟨opcode, operand, labels⟩ := ins
  cases operand <;> rfl

theorem mentions_cut (ins : Instruction ℓ) : ins.cut.mentions = ins.mentions := by
  rw [mentions, branchTarget_cut]
  rfl

end Instruction

namespace Body

variable {body : Body}

/-- The body with each of its texts cut at its first quote. -/
def cut (body : Body) : Body :=
  { body with name := Listing.cutText body.name, code := body.code.map Instruction.cut }

/-- No printed text leaves words behind the quote that ends it. -/
def Closed (body : Body) : Prop :=
  ∀ text ∈ body.texts, Listing.readWords? (Listing.spill text) = some []

theorem typed_cut (typed : body.Typed) : body.cut.Typed := by
  intro ins member
  obtain ⟨source, inside, rfl⟩ := List.mem_map.mp member
  exact (Operand.kind_cut source.operand).trans (typed source inside)

theorem mentioned_cut (body : Body) : body.cut.mentioned = body.mentioned := by
  simp [mentioned, cut, List.flatMap_map, Instruction.mentions_cut]

theorem attached_cut (code : Code Label) : attached (code.map Instruction.cut) = attached code := by
  simp [attached, List.flatMap_map, Instruction.cut]

theorem linked_cut (linked : Linked body.code) : Linked body.cut.code where
  once := (attached_cut body.code).symm ▸ linked.once
  landed := by
    intro ins member label target
    obtain ⟨source, inside, rfl⟩ := List.mem_map.mp member
    rw [Instruction.branchTarget_cut] at target
    exact (attached_cut body.code).symm ▸ linked.landed source inside label target

theorem plain_cut (body : Body) : ∀ text ∈ body.cut.texts, '"' ∉ text.toList := by
  intro text member
  rcases List.mem_cons.mp member with rfl | member
  · exact Listing.plain_cutText body.name
  · obtain ⟨ins, inside, quoted⟩ := List.mem_filterMap.mp member
    obtain ⟨source, _, rfl⟩ := List.mem_map.mp inside
    rw [Instruction.cut, Operand.quoted?_cut] at quoted
    obtain ⟨whole, _, rfl⟩ := Option.map_eq_some_iff.mp quoted
    exact Listing.plain_cutText whole

theorem cut_eq_self : body.cut = body ↔ ∀ text ∈ body.texts, '"' ∉ text.toList := by
  have parts : body.cut = body ↔
      Listing.cutText body.name = body.name ∧ ∀ ins ∈ body.code, ins.cut = ins := by
    obtain ⟨name, code, nextLabel⟩ := body
    have each : code.map Instruction.cut = code ↔ ∀ ins ∈ code, ins.cut = ins := by
      simpa using List.map_inj_left (f := Instruction.cut) (g := id) (l := code)
    rw [cut, Body.mk.injEq, each]
    simp
  rw [parts, Listing.cutText_eq_self, texts, List.forall_mem_cons]
  refine and_congr_right fun _ => ⟨fun same text member => ?_, fun plain ins member => ?_⟩
  · obtain ⟨ins, inside, quoted⟩ := List.mem_filterMap.mp member
    have operand := congrArg Instruction.operand (same ins inside)
    exact Operand.cut_eq_self.mp operand text quoted
  · have operand : ins.operand.cut = ins.operand := Operand.cut_eq_self.mpr fun text quoted =>
      plain text (List.mem_filterMap.mpr ⟨ins, member, quoted⟩)
    rw [Instruction.cut, operand]

theorem closed_of_plain (plain : ∀ text ∈ body.texts, '"' ∉ text.toList) : body.Closed := by
  intro text member
  rw [Listing.spill_of_plain (plain text member)]
  exact Listing.readWords?_nil

end Body

namespace Listing

variable {statement : Statement} {statements : List Statement}

theorem labelWord_injective {name other : String} (same : labelWord name = labelWord other) :
    name = other := by
  have named : labelName? (labelWord name) = some name := labelName?_eq_some.mpr rfl
  rw [labelName?_eq_some.mpr same] at named
  cases named
  rfl

theorem labelWord_ne_of_spelt {word : Word} {op : Opcode}
    (spelt : word.map Char.toLower = op.mnemonic.toList.map Char.toLower) (name : String) :
    labelWord name ≠ word := by
  intro same
  cases (labelName?_eq_some.mpr same.symm).symm.trans (labelName?_of_spelt spelt)

theorem means_label {name : String} :
    Means [labelWord name] statement ↔ statement = .code [name] none := by
  constructor
  · intro means
    generalize same : [labelWord name] = words at means
    cases means with
    | method other =>
      exact absurd (List.cons.inj same).1 (labelWord_ne_methodWord name)
    | labels names =>
      cases names with
      | nil => cases same
      | cons head tail =>
        obtain ⟨first, rest⟩ := List.cons.inj same
        cases labelWord_injective first
        cases List.map_eq_nil_iff.mp rest.symm
        rfl
    | operation names spelt =>
      cases names with
      | nil => exact absurd (List.cons.inj same).1 (labelWord_ne_of_spelt spelt name)
      | cons head tail => exact absurd (List.cons.inj same).2.symm (by simp)
  · rintro rfl
    exact .labels [name]

theorem means_method {operands : List Word} :
    Means (methodWord :: operands) statement ↔
      ∃ name, operands = [name] ∧ statement = .method (String.ofList name) := by
  constructor
  · intro means
    generalize same : methodWord :: operands = words at means
    cases means with
    | method name => exact ⟨name, (List.cons.inj same).2, rfl⟩
    | labels names =>
      cases names with
      | nil => cases same
      | cons head tail =>
        exact absurd (List.cons.inj same).1.symm (labelWord_ne_methodWord head)
    | operation names spelt =>
      cases names with
      | nil => exact absurd (List.cons.inj same).1.symm (ne_methodWord_of_spelt spelt)
      | cons head tail =>
        exact absurd (List.cons.inj same).1.symm (labelWord_ne_methodWord head)
  · rintro ⟨name, rfl, rfl⟩
    exact .method name

theorem means_operation {op : Opcode} {operands : List Word} :
    Means (op.mnemonic.toList :: operands) statement ↔
      ∃ operand, Takes op operands operand ∧ statement = .code [] (some ⟨op, operand⟩) := by
  have own : op.mnemonic.toList.map Char.toLower = op.mnemonic.toList.map Char.toLower := rfl
  constructor
  · intro means
    generalize same : op.mnemonic.toList :: operands = words at means
    cases means with
    | method name => exact absurd (List.cons.inj same).1 (ne_methodWord_of_spelt own)
    | labels names =>
      cases names with
      | nil => cases same
      | cons head tail =>
        exact absurd (List.cons.inj same).1.symm (labelWord_ne_of_spelt own head)
    | operation names spelt takes =>
      cases names with
      | nil =>
        -- Mnemonics are in lower case, so that no other one has the same letters.
        obtain ⟨first, rfl⟩ := List.cons.inj same
        rw [← first, Opcode.lower_mnemonic, Opcode.lower_mnemonic] at spelt
        cases Opcode.mnemonic_injective (String.toList_injective spelt)
        exact ⟨_, takes, rfl⟩
      | cons head tail =>
        exact absurd (List.cons.inj same).1.symm (labelWord_ne_of_spelt own head)
  · rintro ⟨operand, takes, rfl⟩
    exact .operation [] rfl takes

/-- The words of a printed operand, and no more, are taken for that operand. -/
theorem takes_words {op : Opcode} {operand : Operand Label} (typed : operand.kind = op.kind)
    {more : List Word} {taken : Operand String} :
    Takes op (operand.words ++ more) taken ↔ more = [] ∧ taken = operand.cut.map Label.text := by
  have number (value : Int32) : readInt value.toInt.repr.toList = .ok value :=
    readInt_toString value
  rw [← readOperand_eq_ok]
  unfold readOperand
  rw [← typed]
  cases operand
  all_goals
    cases more
    all_goals simp [Operand.words, Operand.kind, Operand.cut, Operand.map, number, eq_comm]

/-- The statements that the lines of an instruction say. -/
def instructionStatements (ins : Instruction Label) : List Statement :=
  ins.labels.map (fun label => .code [label.text] none) ++
    [.code [] (some ⟨ins.opcode, ins.operand.map Label.text⟩)]

def bodyStatements (body : Body) : List Statement :=
  .method body.name :: body.code.flatMap instructionStatements

theorem sentences_line {line spilled : List Char} {first : Word} {words : List Word}
    {lines : List (List Char)}
    (read : readWords? line = (readWords? spilled).map (first :: words ++ ·)) :
    Sentences (line :: lines) statements ↔
      ∃ more statement later, readWords? spilled = some more ∧
        Means (first :: (words ++ more)) statement ∧ statements = statement :: later ∧
          Sentences lines later := by
  constructor
  · intro sentences
    cases sentences with
    | blank empty =>
      rw [read] at empty
      obtain ⟨more, _, impossible⟩ := Option.map_eq_some_iff.mp empty
      cases impossible
    | line closed _ means rest =>
      rw [read] at closed
      obtain ⟨more, spills, rfl⟩ := Option.map_eq_some_iff.mp closed
      exact ⟨more, _, _, spills, means, rfl, rest⟩
  · rintro ⟨more, statement, later, spills, means, rfl, rest⟩
    rw [spills] at read
    exact .line read (List.cons_ne_nil _ _) means rest

theorem sentences_labels {labels : List Label} {lines : List (List Char)} :
    Sentences (labels.map (fun label => (label.text ++ ":").toList) ++ lines) statements ↔
      ∃ later, statements = labels.map (fun label => .code [label.text] none) ++ later ∧
        Sentences lines later := by
  induction labels generalizing statements with
  | nil => simp
  | cons label labels ih =>
    have read : readWords? (label.text ++ ":").toList =
        (readWords? []).map ([labelWord label.text] ++ ·) := by
      rw [readWords?_label, readWords?_nil]
      rfl
    rw [List.map_cons, List.cons_append, sentences_line read]
    simp only [List.nil_append, readWords?_nil, Option.some.injEq]
    constructor
    · rintro ⟨_, _, _, rfl, means, rfl, others⟩
      obtain ⟨later, rfl, rest⟩ := ih.mp others
      cases means_label.mp means
      exact ⟨later, rfl, rest⟩
    · rintro ⟨later, rfl, rest⟩
      exact ⟨[], _, _, rfl, means_label.mpr rfl, rfl, ih.mpr ⟨later, rfl, rest⟩⟩

theorem sentences_instruction {ins : Instruction Label} (typed : ins.Typed)
    {lines : List (List Char)} :
    Sentences (("    " ++ ins.text).toList :: lines) statements ↔
      readWords? ins.operand.spill = some [] ∧
        ∃ later, statements =
          .code [] (some ⟨ins.opcode, ins.operand.cut.map Label.text⟩) :: later ∧
            Sentences lines later := by
  rw [sentences_line (readWords?_instruction ins)]
  simp only [means_operation, takes_words typed]
  constructor
  · rintro ⟨_, _, later, closed, ⟨operand, ⟨rfl, rfl⟩, rfl⟩, rfl, rest⟩
    exact ⟨closed, later, rfl, rest⟩
  · rintro ⟨closed, later, rfl, rest⟩
    exact ⟨[], _, later, closed, ⟨_, ⟨rfl, rfl⟩, rfl⟩, rfl, rest⟩

theorem sentences_code {code : Code Label} (typed : ∀ ins ∈ code, ins.Typed) :
    Sentences ((code.flatMap instructionLines).map String.toList) statements ↔
      (∀ ins ∈ code, readWords? ins.operand.spill = some []) ∧
        statements = (code.map Instruction.cut).flatMap instructionStatements := by
  induction code generalizing statements with
  | nil =>
    constructor
    · rintro ⟨⟩
      exact ⟨by simp, rfl⟩
    · rintro ⟨_, rfl⟩
      exact .nil
  | cons ins rest ih =>
    obtain ⟨first, others⟩ := List.forall_mem_cons.mp typed
    have shape : ((ins :: rest).flatMap instructionLines).map String.toList =
        ins.labels.map (fun label => (label.text ++ ":").toList) ++
          ("    " ++ ins.text).toList :: (rest.flatMap instructionLines).map String.toList := by
      simp [instructionLines, Function.comp_def]
    rw [shape, sentences_labels]
    simp only [sentences_instruction first, ih others, List.forall_mem_cons]
    constructor
    · rintro ⟨_, rfl, closed, _, rfl, last, rfl⟩
      refine ⟨⟨closed, last⟩, ?_⟩
      simp [instructionStatements, Instruction.cut]
    · rintro ⟨⟨closed, last⟩, rfl⟩
      refine ⟨_, ?_, closed, _, rfl, last, rfl⟩
      simp [instructionStatements, Instruction.cut]

theorem closed_iff {body : Body} :
    body.Closed ↔ readWords? (spill body.name) = some [] ∧
      ∀ ins ∈ body.code, readWords? ins.operand.spill = some [] := by
  unfold Body.Closed Body.texts
  rw [List.forall_mem_cons]
  refine and_congr_right fun _ => ⟨fun closed ins member => ?_, fun closed text member => ?_⟩
  · unfold Operand.spill
    cases quoted : ins.operand.quoted? with
    | none => exact readWords?_nil
    | some text => exact closed text (List.mem_filterMap.mpr ⟨ins, member, quoted⟩)
  · obtain ⟨ins, inside, quoted⟩ := List.mem_filterMap.mp member
    have own := closed ins inside
    rwa [Operand.spill, quoted] at own

/-- The lines of a printed body say its statements with all texts cut, unless a text spills. -/
theorem sentences_print {body : Body} (typed : body.Typed)
    (oneLine : ∀ text ∈ body.texts, '\n' ∉ text.toList) :
    Sentences (lines (print body).toList) statements ↔
      body.Closed ∧ statements = bodyStatements body.cut := by
  have head : ".method".toList = methodWord := rfl
  rw [lines_print oneLine, bodyLines, List.map_cons, sentences_line (readWords?_method body.name),
    closed_iff, head]
  simp only [sentences_code typed, means_method, List.singleton_append, List.cons.injEq]
  constructor
  · rintro ⟨_, _, _, spills, ⟨_, ⟨rfl, rfl⟩, rfl⟩, rfl, closed, rfl⟩
    rw [String.ofList_toList]
    exact ⟨⟨spills, closed⟩, rfl⟩
  · rintro ⟨⟨spills, closed⟩, rfl⟩
    refine ⟨[], _, _, spills, ⟨_, ⟨rfl, rfl⟩, rfl⟩, ?_, closed, rfl⟩
    rw [String.ofList_toList]
    rfl

end Listing

end SpawnGuard
