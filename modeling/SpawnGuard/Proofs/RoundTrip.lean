import SpawnGuard.Proofs.PrintedPrograms

/-!
Printing a body and reading it back: the body comes back with its labels numbered by first
appearance and its texts cut at their first quote, unless a text spills words behind that quote.
-/
namespace SpawnGuard.Listing

variable {given : String} {body again : Body}

private theorem labelOf_text (typed : body.Typed) {label : Label}
    (member : label ∈ body.mentioned) :
    labelOf (bodyStatements body) label.text = body.number label := by
  rw [labelOf, labelNames_bodyStatements typed,
    firstNumber_map (fun _ _ _ _ => text_injective) member]
  rfl

/-- The statements of a body put together are the body, its labels numbered in order. -/
theorem renumbered_of_assemble {numbered : List Numbered} (typed : body.Typed)
    (said : numbered.map (·.statement) = bodyStatements body)
    (assembled : assemble given numbered = .ok again) : again = body.renumbered := by
  have built := body_of_assemble said assembled
  have code : (body.code.map (Instruction.map Label.text)).map
      (Instruction.map (labelOf (bodyStatements body))) =
        body.code.map (Instruction.map body.number) := by
    rw [List.map_map]
    refine List.map_congr_left fun ins member => ?_
    rw [Function.comp_apply, Instruction.map_map]
    exact (typed ins member).map_congr fun label named =>
      labelOf_text typed (Body.mem_mentioned member named)
  have count : (labelNames (bodyStatements body)).toFinset.card = body.mentioned.toFinset.card := by
    rw [labelNames_bodyStatements typed, card_map fun _ _ _ _ => text_injective]
  rw [program_bodyStatements said, methodName_bodyStatements, code, count] at built
  exact built

/-- What a printed body says is grammatical if its branches land, its labels are not too many and
no text spills words. -/
theorem grammatical_print (typed : body.Typed) (linked : Body.Linked body.code)
    (few : body.mentioned.toFinset.card < Label.limit)
    (oneLine : ∀ text ∈ body.texts, '\n' ∉ text.toList) (closed : body.Closed) :
    Grammatical (print body) (bodyStatements body.cut) where
  sentences := (sentences_print typed oneLine).mpr ⟨closed, rfl⟩
  once := by
    rw [defines_bodyStatements]
    exact (Body.linked_cut linked).once.map fun _ _ => text_injective
  followed := followed_bodyStatements body.cut
  defined := targets_bodyStatements (Body.typed_cut typed) (Body.linked_cut linked)
  few := by
    rwa [labelNames_bodyStatements (Body.typed_cut typed), Body.mentioned_cut,
      card_map fun _ _ _ _ => text_injective]

/-- A printed body is read unless a text spills words behind its first quote, and then comes back
with its labels numbered in order and its texts cut. -/
theorem read_print (typed : body.Typed) (linked : Body.Linked body.code)
    (few : body.mentioned.toFinset.card < Label.limit)
    (oneLine : ∀ text ∈ body.texts, '\n' ∉ text.toList) :
    read given (print body) = .ok again ↔ body.Closed ∧ again = body.cut.renumbered := by
  have cut := Body.typed_cut typed
  constructor
  · intro accepted
    obtain ⟨numbered, done, assembled⟩ := read_eq_ok.mp accepted
    obtain ⟨sentences, _⟩ := readStatements_eq_ok.mp ⟨numbered, done, rfl⟩
    obtain ⟨closed, said⟩ := (sentences_print typed oneLine).mp sentences
    exact ⟨closed, renumbered_of_assemble cut said assembled⟩
  · rintro ⟨closed, rfl⟩
    obtain ⟨numbered, done, said, read, assembled⟩ :=
      (grammatical_iff given).mp (grammatical_print typed linked few oneLine closed)
    cases renumbered_of_assemble cut said assembled
    exact read_eq_ok.mpr ⟨numbered, done, assembled⟩

theorem read_print_plain (typed : body.Typed) (linked : Body.Linked body.code)
    (few : body.mentioned.toFinset.card < Label.limit)
    (plain : ∀ text ∈ body.texts, '"' ∉ text.toList ∧ '\n' ∉ text.toList) :
    read given (print body) = .ok body.renumbered := by
  have quotes : ∀ text ∈ body.texts, '"' ∉ text.toList := fun text member => (plain text member).1
  have oneLine : ∀ text ∈ body.texts, '\n' ∉ text.toList :=
    fun text member => (plain text member).2
  refine (read_print typed linked few oneLine).mpr ⟨Body.closed_of_plain quotes, ?_⟩
  rw [Body.cut_eq_self.mpr quotes]

theorem texts_relabel (rename : Label → Label) (next : Nat) (body : Body) :
    (body.relabel rename next).texts = body.texts := by
  have quoted : (fun ins : Instruction Label => ins.operand.quoted?) ∘ Instruction.map rename =
      fun ins => ins.operand.quoted? := funext fun ins => Operand.quoted?_map rename ins.operand
  rw [Body.texts, Body.relabel, List.filterMap_map, quoted]
  rfl

theorem texts_renumbered (body : Body) : body.renumbered.texts = body.texts :=
  texts_relabel body.number _ body

/-- What is printed is read as the same body whatever its labels are called. -/
theorem read_print_relabel (typed : body.Typed) (linked : Body.Linked body.code)
    (few : body.mentioned.toFinset.card < Label.limit)
    (plain : ∀ text ∈ body.texts, '"' ∉ text.toList ∧ '\n' ∉ text.toList)
    {rename : Label → Label} (apart : body.Apart rename) (next : Nat) :
    read given (print (body.relabel rename next)) = .ok body.renumbered := by
  rw [← Body.renumbered_relabel next typed apart]
  refine read_print_plain (Body.typed_relabel next typed) (Body.linked_relabel next linked apart)
    ?_ ?_
  · rwa [Body.card_relabel next apart]
  · rwa [texts_relabel]

theorem few_of_small (small : ∀ label ∈ body.mentioned, label.id + 1 < Label.limit) :
    body.mentioned.toFinset.card < Label.limit := by
  have inside : ∀ label ∈ body.mentioned.toFinset, label.id ∈ Finset.range (Label.limit - 1) := by
    intro label member
    have low := small label (List.mem_toFinset.mp member)
    exact Finset.mem_range.mpr (by omega)
  have apart : Set.InjOn Label.id body.mentioned.toFinset := by
    rintro ⟨one⟩ _ ⟨two⟩ _ same
    exact congrArg Label.mk same
  have count := Finset.card_le_card_of_injOn Label.id inside apart
  rw [Finset.card_range] at count
  have room : 0 < Label.limit := by decide
  omega

/-- Printing and reading is the identity up to the numbers of labels, which stay apart and come
out in order; on the body read it is the identity. -/
theorem printed_body_reads_back {body : Body} (sound : body.validate = .ok ())
    (typed : body.Typed)
    (plain : ∀ text ∈ body.texts, '"' ∉ text.toList ∧ '\n' ∉ text.toList)
    (small : ∀ label ∈ body.mentioned, label.id + 1 < Label.limit) :
    (∀ label ∈ body.mentioned, ∀ other, body.number label = body.number other ↔ label = other) ∧
      (∀ given, read given (print body) = .ok body.renumbered) ∧
        ∀ given, read given (print body.renumbered) = .ok body.renumbered := by
  have linked := Body.validate_eq_ok.mp sound
  have few := few_of_small small
  refine ⟨fun label member other => Body.number_inj member, fun given => ?_, fun given => ?_⟩
  · exact read_print_plain typed linked few plain
  · exact read_print_relabel typed linked few plain body.apart_number _

/-- A body with texts that look like comments and labels out of order. -/
def knotted : Body where
  name := " a: # b\x0d"
  code :=
    [⟨.ldcI4, .int (-2147483648), [⟨7⟩, ⟨3⟩]⟩, ⟨.brfalse, .label ⟨9⟩, []⟩,
      ⟨.ldsfld, .field "// c:", []⟩, ⟨.call, .method "", [⟨9⟩]⟩, ⟨.br, .label ⟨3⟩, []⟩]
  nextLabel := 10

theorem knotted_reads_back :
    knotted.validate = .ok () ∧ knotted.Typed ∧
      (∀ text ∈ knotted.texts, '"' ∉ text.toList ∧ '\n' ∉ text.toList) ∧
        (∀ label ∈ knotted.mentioned, label.id + 1 < Label.limit) ∧
          ∀ given, read given (print knotted) = .ok
            ⟨" a: # b\x0d",
              [⟨.ldcI4, .int (-2147483648), [⟨0⟩, ⟨1⟩]⟩, ⟨.brfalse, .label ⟨2⟩, []⟩,
                ⟨.ldsfld, .field "// c:", []⟩, ⟨.call, .method "", [⟨2⟩]⟩,
                ⟨.br, .label ⟨1⟩, []⟩],
              3⟩ := by
  have sound : knotted.validate = .ok () := by decide
  have typed : knotted.Typed := by decide
  have plain : ∀ text ∈ knotted.texts, '"' ∉ text.toList ∧ '\n' ∉ text.toList := by decide
  have small : ∀ label ∈ knotted.mentioned, label.id + 1 < Label.limit := by decide
  exact ⟨sound, typed, plain, small, (printed_body_reads_back sound typed plain small).2.1⟩

end SpawnGuard.Listing
