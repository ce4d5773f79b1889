import SpawnGuard.Proofs.Assembly
import SpawnGuard.Proofs.Sentences

/-!
The grammar of whole listings: a text is read exactly when it is grammatical, and the body is then
the program that its statements name.
-/
namespace SpawnGuard.Listing

/-- A text says these statements, and they are fit to be put together. -/
structure Grammatical (text : String) (statements : List Statement) : Prop where
  sentences : Sentences (lines text.toList) statements
  once : (statements.flatMap Statement.defines).Nodup
  followed : Followed statements
  defined : ∀ statement ∈ statements, ∀ name ∈ statement.target?,
    name ∈ statements.flatMap Statement.defines
  few : (labelNames statements).toFinset.card < Label.limit

def labelOf (statements : List Statement) (name : String) : Label :=
  ⟨firstNumber (labelNames statements) name⟩

/-- The body is the program of the statements: each operation in its place, under the labels
defined since the operation before, and labels the same exactly when their names are. -/
structure Builds (given : String) (statements : List Statement) (body : Body) : Prop where
  name : body.name = (statements.filterMap Statement.methodName?).getLast?.getD given
  length : body.code.length = statements.countP (·.operation?.isSome)
  instruction : ∀ before statement after operation, statements = before ++ statement :: after →
    statement.operation? = some operation →
      body.code[before.countP (·.operation?.isSome)]? =
        some ⟨operation.opcode, operation.operand.map (labelOf statements),
          (openLabels before ++ statement.defines).map (labelOf statements)⟩
  apart : ∀ name ∈ labelNames statements, ∀ other ∈ labelNames statements,
    labelOf statements name = labelOf statements other ↔ name = other
  nextLabel : body.nextLabel = (labelNames statements).toFinset.card

variable {given text : String} {body : Body} {numbered : List Numbered}

theorem read_eq_ok :
    read given text = .ok body ↔
      ∃ numbered, readStatements [] 1 (lines text.toList) = .ok numbered ∧
        assemble given numbered = .ok body := by
  unfold read
  cases readStatements [] 1 (lines text.toList) with
  | error error => simp
  | ok numbered => simp

theorem grammatical_iff (given : String) {statements : List Statement} :
    Grammatical text statements ↔
      ∃ numbered, readStatements [] 1 (lines text.toList) = .ok numbered ∧
        numbered.map (·.statement) = statements ∧ ∃ body, assemble given numbered = .ok body := by
  constructor
  · intro grammatical
    obtain ⟨numbered, done, rfl⟩ : ∃ numbered, readStatements [] 1 (lines text.toList) =
        .ok numbered ∧ numbered.map (·.statement) = statements :=
      readStatements_eq_ok.mpr ⟨grammatical.sentences, fresh_nil.mpr grammatical.once⟩
    exact ⟨numbered, done, rfl,
      assemble_isOk.mpr ⟨grammatical.few, grammatical.followed, grammatical.defined⟩⟩
  · rintro ⟨numbered, done, rfl, assembled⟩
    obtain ⟨sentences, once⟩ := readStatements_eq_ok.mp ⟨numbered, done, rfl⟩
    obtain ⟨few, followed, defined⟩ := assemble_isOk.mp assembled
    exact ⟨sentences, fresh_nil.mp once, followed, defined, few⟩

theorem body_of_assemble {statements : List Statement}
    (said : numbered.map (·.statement) = statements)
    (assembled : assemble given numbered = .ok body) :
    body = ⟨(statements.filterMap Statement.methodName?).getLast?.getD given,
      (program [] numbered).map (Instruction.map (labelOf statements)),
      (labelNames statements).toFinset.card⟩ := by
  have built := assemble_eq_ok assembled
  simp only [mentions_eq_labelNames, methodName_eq, idxOf_distinct, length_distinct, said] at built
  exact built

theorem builds_of_assemble (assembled : assemble given numbered = .ok body) :
    Builds given (numbered.map (·.statement)) body := by
  rw [body_of_assemble rfl assembled]
  refine ⟨rfl, ?_, ?_, ?_, rfl⟩
  · rw [List.length_map, length_program]
  · intro before statement after operation split goes
    obtain ⟨early, late, rfl, rfl, rest⟩ := List.map_eq_append_iff.mp split
    obtain ⟨head, tail, rfl, rfl, rfl⟩ := List.map_eq_cons_iff.mp rest
    rw [List.getElem?_map, getElem?_program goes]
    rfl
  · intro name member other _
    rw [labelOf, labelOf, Label.mk.injEq, firstNumber_inj member]

/-- Reading accepts exactly the grammatical texts and builds the program that their statements
name. Label names may be as many as labels have numbers, and no more. -/
theorem read_iff_grammatical (given text : String) :
    ((∃ body, read given text = .ok body) ↔ ∃ statements, Grammatical text statements) ∧
      ∀ statements body, Grammatical text statements → read given text = .ok body →
        Builds given statements body := by
  refine ⟨⟨?_, ?_⟩, ?_⟩
  · rintro ⟨body, accepted⟩
    obtain ⟨numbered, done, assembled⟩ := read_eq_ok.mp accepted
    exact ⟨_, (grammatical_iff given).mpr ⟨numbered, done, rfl, body, assembled⟩⟩
  · rintro ⟨statements, grammatical⟩
    obtain ⟨numbered, done, _, body, assembled⟩ := (grammatical_iff given).mp grammatical
    exact ⟨body, read_eq_ok.mpr ⟨numbered, done, assembled⟩⟩
  · intro statements body grammatical accepted
    obtain ⟨numbered, done, said, _⟩ := (grammatical_iff given).mp grammatical
    obtain ⟨_, again, assembled⟩ := read_eq_ok.mp accepted
    cases done.symm.trans again
    rw [← said]
    exact builds_of_assemble assembled

/-- A name, a jump forward over one instruction, comments, an empty line, and a carriage return in
front of some line feeds. -/
def jumpText : String := ".method Skip # by name\r\nbr.s end\r\n\r\nnop // unused\nend: RET"

def jumpStatements : List Statement :=
  [.method "Skip", .code [] (some ⟨.brS, .label "end"⟩), .code [] (some ⟨.nop, .none⟩),
    .code ["end"] (some ⟨.ret, .none⟩)]

theorem lines_jumpText :
    lines jumpText.toList =
      [".method Skip # by name".toList, "br.s end".toList, [], "nop // unused".toList,
        "end: RET".toList] := by
  decide +kernel

theorem sentences_jump : Sentences (lines jumpText.toList) jumpStatements := by
  have name : readWords? ".method Skip # by name".toList =
      some [".method".toList, "Skip".toList] := by decide +kernel
  have jump : readWords? "br.s end".toList = some ["br.s".toList, "end".toList] := by
    decide +kernel
  have empty : readWords? [] = some [] := by decide +kernel
  have unused : readWords? "nop // unused".toList = some ["nop".toList] := by decide +kernel
  have target : readWords? "end: RET".toList = some ["end:".toList, "RET".toList] := by
    decide +kernel
  rw [lines_jumpText]
  refine .line name (List.cons_ne_nil _ _) (.method "Skip".toList) ?_
  refine .line jump (List.cons_ne_nil _ _) (.operation [] rfl (.label "end".toList rfl)) ?_
  refine .blank empty ?_
  refine .line unused (List.cons_ne_nil _ _) (.operation [] rfl (.none rfl)) ?_
  exact .line target (List.cons_ne_nil _ _) (.operation ["end"] rfl (.none rfl)) .nil

theorem grammatical_jump : Grammatical jumpText jumpStatements where
  sentences := sentences_jump
  once := by decide
  followed statement after behind _ := by
    -- The last statement has an operation, and it stands behind every other one.
    have last := List.getLast_mem (List.cons_ne_nil statement after)
    rw [behind.getLast] at last
    exact ⟨_, last, rfl⟩
  defined := by decide
  few := by decide

/-- The text is read as the program that jumps to its end. -/
theorem jumpText_reads :
    Grammatical jumpText jumpStatements ∧
      ∃ body, read "m" jumpText = .ok body ∧ Builds "m" jumpStatements body ∧
        body = ⟨"Skip", [⟨.brS, .label ⟨0⟩, []⟩, ⟨.nop, .none, []⟩, ⟨.ret, .none, [⟨0⟩]⟩], 1⟩ := by
  obtain ⟨accepted, built⟩ := read_iff_grammatical "m" jumpText
  obtain ⟨body, reads⟩ := accepted.mpr ⟨jumpStatements, grammatical_jump⟩
  refine ⟨grammatical_jump, body, reads, built _ body grammatical_jump reads, ?_⟩
  have known : read "m" jumpText = .ok ⟨"Skip", [⟨.brS, .label ⟨0⟩, []⟩, ⟨.nop, .none, []⟩,
      ⟨.ret, .none, [⟨0⟩]⟩], 1⟩ := by
    decide +kernel
  exact Except.ok.inj (reads.symm.trans known)

end SpawnGuard.Listing
