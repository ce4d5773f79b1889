import Mathlib.Logic.Function.Basic
import SpawnGuard.Proofs.RenamedRuns

/-!
What a label is called means nothing. Code whose labels are renamed, and stay apart, makes a body
that validates, is patched at the same place, runs as before, and is printed so that it reads back
as the same body.
-/
namespace SpawnGuard

variable {rename : Label → Label}

namespace Pattern

variable {pattern : Pattern} {code : Code Label}

private theorem accepts_map {test : InstructionTest} (straight : test.opcode.kind ≠ .label)
    {ins : Instruction Label} (typed : ins.Typed) :
    test.accepts (ins.map rename) = test.accepts ins := by
  have named : (ins.map rename).opcode = ins.opcode := rfl
  unfold InstructionTest.accepts
  by_cases same : ins.opcode = test.opcode
  · have plain : ins.operand.kind ≠ .label := by rwa [typed, same]
    rw [named, show (ins.map rename).operand = ins.operand from Operand.map_of_plain plain]
  · simp [named, same]

private theorem matchesHead_map (straight : ∀ test ∈ pattern, test.opcode.kind ≠ .label)
    (typed : ∀ ins ∈ code, ins.Typed) :
    matchesHead pattern (code.map (Instruction.map rename)) = matchesHead pattern code := by
  induction pattern generalizing code with
  | nil => rfl
  | cons test tests ih =>
    obtain ⟨straight, others⟩ := List.forall_mem_cons.mp straight
    cases code with
    | nil => rfl
    | cons ins rest =>
      obtain ⟨typed, later⟩ := List.forall_mem_cons.mp typed
      rw [List.map_cons, matchesHead, matchesHead, accepts_map straight typed, ih others later]

/-- A pattern without branches does not see what labels are called. -/
theorem find?_map (straight : ∀ test ∈ pattern, test.opcode.kind ≠ .label)
    (typed : ∀ ins ∈ code, ins.Typed) :
    find? pattern (code.map (Instruction.map rename)) = find? pattern code := by
  have same (index : Nat) : matchesAt pattern (code.map (Instruction.map rename)) index =
      matchesAt pattern code index := by
    rw [matchesAt, matchesAt, List.length_map, ← List.map_drop, matchesHead_map straight]
    exact fun ins member => typed ins (List.mem_of_mem_drop member)
  simp only [find?, List.length_map, same]

end Pattern

/-- Code that is renamed and then guarded is the guarded code renamed, if the label of the one
guard is renamed to that of the other. -/
theorem PatchSite.guarded_map {code : Code Label} (typed : ∀ ins ∈ code, ins.Typed)
    {extended : Label → Label}
    (agree : ∀ ins ∈ code, ∀ label ∈ ins.mentions, extended label = rename label)
    (site : Nat) (hook : String) (fresh : Label) :
    guarded (code.map (Instruction.map rename)) site hook (extended fresh) =
      (guarded code site hook fresh).map (Instruction.map extended) := by
  have same : code.map (Instruction.map rename) = code.map (Instruction.map extended) :=
    List.map_congr_left fun ins member =>
      (typed ins member).map_congr fun label named => (agree ins member label named).symm
  have head (rest : Code Label) : labelHead (extended fresh) (rest.map (Instruction.map extended)) =
      (labelHead fresh rest).map (Instruction.map extended) := by
    cases rest with
    | nil => rfl
    | cons ins rest => simp [labelHead, Instruction.map]
  rw [same, guarded, guarded, List.map_append, List.map_append, ← List.map_take, ← List.map_drop,
    head]
  rfl

namespace Body

variable {name : String} {code : Code Label} {body : Body}

/-- Another copy of the code under new labels is the body with its labels renamed. -/
theorem ofCode_map (built : ofCode name code = .ok body)
    (small : ∀ label ∈ body.mentioned, (rename label).id + 2 < Label.limit) :
    ∃ next, next + 1 < Label.limit ∧
      ofCode name (code.map (Instruction.map rename)) = .ok (body.relabel rename next) := by
  obtain ⟨_, rfl⟩ := ofCode_eq_ok.mp built
  have room : firstFree (code.map (Instruction.map rename)) + 1 < Label.limit := by
    refine firstFree_lt fun label named => ?_
    rw [flatMap_mentions_map] at named
    obtain ⟨source, inside, rfl⟩ := List.mem_map.mp named
    exact small source inside
  exact ⟨_, room, ofCode_eq_ok.mpr ⟨Nat.lt_of_succ_lt room, rfl⟩⟩

/-- The renaming with one more label, that of the guard the body gets. -/
def extend (rename : Label → Label) (next : Nat) (body : Body) : Label → Label :=
  Function.update rename ⟨body.nextLabel⟩ ⟨next⟩

theorem extend_nextLabel (rename : Label → Label) (next : Nat) (body : Body) :
    body.extend rename next ⟨body.nextLabel⟩ = ⟨next⟩ := Function.update_self _ _ _

theorem extend_of_mem (numbered : body.Numbered) (next : Nat) {label : Label}
    (named : label ∈ body.mentioned) : body.extend rename next label = rename label := by
  obtain ⟨ins, member, inside⟩ := List.mem_flatMap.mp named
  refine Function.update_of_ne (fun same => ?_) _ _
  subst same
  exact Nat.lt_irrefl _ (numbered ins member _ inside)

theorem guarded_relabel (typed : body.Typed) (numbered : body.Numbered) (next site : Nat)
    (hook : String) :
    (body.relabel rename next).guarded site hook =
      (body.guarded site hook).relabel (body.extend rename next) (next + 1) := by
  have agree : ∀ ins ∈ body.code, ∀ label ∈ ins.mentions,
      body.extend rename next label = rename label :=
    fun ins member label named => extend_of_mem numbered next (mem_mentioned member named)
  have code := PatchSite.guarded_map typed agree site hook ⟨body.nextLabel⟩
  rw [extend_nextLabel] at code
  rw [guarded, guarded, relabel, relabel, code]

end Body

variable {name : String} {code : Code Label} {body : Body}

theorem repairTail_straight : ∀ test ∈ repairTail, test.opcode.kind ≠ .label := by
  decide

/-- A patch does the same with a body and with its labels renamed. -/
theorem transpile_relabel (typed : body.Typed) (numbered : body.Numbered)
    (room : body.nextLabel + 1 < Label.limit) {next : Nat} (left : next + 1 < Label.limit)
    (hook : String) :
    (transpile hook body = .ok (body, .notFound) ∧
      transpile hook (body.relabel rename next) = .ok (body.relabel rename next, .notFound)) ∨
    ∃ site patched, transpile hook body = .ok (patched, .patched site ⟨body.nextLabel⟩) ∧
      transpile hook (body.relabel rename next) =
        .ok (patched.relabel (body.extend rename next) (next + 1), .patched site ⟨next⟩) := by
  have same : repairTail.find? (body.relabel rename next).code = repairTail.find? body.code :=
    Pattern.find?_map repairTail_straight typed
  cases found : repairTail.find? body.code with
  | none =>
    rw [found] at same
    exact .inl ⟨transpile_of_find?_eq_none hook found, transpile_of_find?_eq_none hook same⟩
  | some site =>
    rw [found] at same
    refine .inr ⟨site, _, transpile_of_find? hook found room, ?_⟩
    rw [← Body.guarded_relabel typed numbered next site hook]
    exact transpile_of_find? hook same left

/-- What the labels of a body are called does not matter as long as different ones keep different
names: the body under other labels validates, is patched at the same place and becomes the patched
body under other labels, runs alike on every host, and reads back alike from its listing. -/
theorem label_names_carry_no_meaning (built : Body.ofCode name code = .ok body)
    (typed : body.Typed) (sound : body.validate = .ok ()) (apart : body.Apart rename)
    (small : ∀ label ∈ body.mentioned,
      label.id + 2 < Label.limit ∧ (rename label).id + 2 < Label.limit) :
    ∃ renamed, Body.ofCode name (code.map (Instruction.map rename)) = .ok renamed ∧
      renamed.validate = .ok () ∧
      (∀ hook,
        (transpile hook body = .ok (body, .notFound) ∧
          transpile hook renamed = .ok (renamed, .notFound)) ∨
        ∃ site patched copy extended,
          transpile hook body = .ok (patched, .patched site ⟨body.nextLabel⟩) ∧
          transpile hook renamed = .ok (copy, .patched site ⟨renamed.nextLabel⟩) ∧
          extended ⟨body.nextLabel⟩ = (⟨renamed.nextLabel⟩ : Label) ∧
          (∀ label ∈ body.mentioned, extended label = rename label) ∧
          copy.name = patched.name ∧ copy.code = patched.code.map (Instruction.map extended)) ∧
      (∀ (σ : Type) (host : Host σ) (args : List Value) (limit : Nat) (state : σ),
        (Machine.ofBody renamed).run host args limit state =
          (Machine.ofBody body).run host args limit state) ∧
      ((∀ text ∈ body.texts, '"' ∉ text.toList ∧ '\n' ∉ text.toList) → ∀ given,
        ∃ again, Listing.read given (Listing.print body) = .ok again ∧
          Listing.read given (Listing.print renamed) = .ok again) := by
  have linked := Body.validate_eq_ok.mp sound
  have numbered := Body.numbered_ofCode built
  have room : body.nextLabel + 1 < Label.limit := by
    obtain ⟨_, rfl⟩ := Body.ofCode_eq_ok.mp built
    exact Body.firstFree_lt fun label named => (small label named).1
  have few : body.mentioned.toFinset.card < Label.limit :=
    Listing.few_of_small fun label named => Nat.lt_of_succ_lt (small label named).1
  obtain ⟨next, left, again⟩ := Body.ofCode_map built fun label named => (small label named).2
  refine ⟨_, again, ?_, fun hook => ?_, fun σ host args limit state => ?_, fun plain given => ?_⟩
  · exact Body.validate_eq_ok.mpr (Body.linked_relabel next linked apart)
  · rcases transpile_relabel typed numbered room left hook with missing | ⟨site, patched, one, two⟩
    · exact .inl missing
    · refine .inr ⟨site, patched, _, body.extend rename next, one, two, ?_, ?_, rfl, rfl⟩
      · exact Body.extend_nextLabel rename next body
      · exact fun label named => Body.extend_of_mem numbered next named
  · have relabelled := Machine.relabelled_ofBody typed linked apart next
    exact Machine.runFrom_relabelled relabelled 0 limit ⟨0, [], state⟩
  · exact ⟨body.renumbered, Listing.read_print_plain typed linked few plain,
      Listing.read_print_relabel typed linked few plain apart next⟩

def reverseLabels (label : Label) : Label := ⟨9 - 4 * label.id⟩

def reversedSpawnBody : Body := spawnBody.relabel reverseLabels 10

/-- The spawn method of the game with labels that are given out in another order. -/
theorem spawnBody_under_reversed_labels :
    Body.ofCode spawnBody.name spawnBody.code = .ok spawnBody ∧ spawnBody.Typed ∧
      spawnBody.validate = .ok () ∧ spawnBody.Apart reverseLabels ∧
      (∀ label ∈ spawnBody.mentioned,
        label.id + 2 < Label.limit ∧ (reverseLabels label).id + 2 < Label.limit) ∧
      reversedSpawnBody.validate = .ok () ∧
      (∃ copy extended, transpile defaultHook reversedSpawnBody = .ok (copy, .patched 9 ⟨10⟩) ∧
        extended ⟨2⟩ = (⟨10⟩ : Label) ∧ extended ⟨0⟩ = ⟨9⟩ ∧
        copy.code = (guardedSpawnBody defaultHook).code.map (Instruction.map extended)) ∧
      (Machine.ofBody reversedSpawnBody).run (Host.always .null) [.object "this"] 14 () =
        (.ok ⟨some .null, 14, 12⟩, ()) ∧
      ∃ again, Listing.read "" (Listing.print spawnBody) = .ok again ∧
        Listing.read "" (Listing.print reversedSpawnBody) = .ok again := by
  have built : Body.ofCode spawnBody.name spawnBody.code = .ok spawnBody := by decide
  have typed : spawnBody.Typed := by decide
  have sound : spawnBody.validate = .ok () := by decide
  have apart : spawnBody.Apart reverseLabels := by decide
  have small : ∀ label ∈ spawnBody.mentioned,
      label.id + 2 < Label.limit ∧ (reverseLabels label).id + 2 < Label.limit := by
    decide
  have plain : ∀ text ∈ spawnBody.texts, '"' ∉ text.toList ∧ '\n' ∉ text.toList := by
    decide
  have made : Body.ofCode spawnBody.name (spawnBody.code.map (Instruction.map reverseLabels)) =
      .ok reversedSpawnBody := by
    decide
  have ran : (Machine.ofBody spawnBody).run (Host.always .null) [.object "this"] 14 () =
      (.ok ⟨some .null, 14, 12⟩, ()) := by
    decide
  obtain ⟨renamed, again, valid, patches, runs, reads⟩ :=
    label_names_carry_no_meaning built typed sound apart small
  cases made.symm.trans again
  refine ⟨built, typed, sound, apart, small, valid, ?_, ?_, reads plain ""⟩
  · rcases patches defaultHook with ⟨missing, _⟩ | ⟨site, patched, copy, extended, one, two, guard,
      others, _, code⟩
    · cases missing.symm.trans (transpile_spawnBody defaultHook)
    · cases one.symm.trans (transpile_spawnBody defaultHook)
      exact ⟨copy, extended, two, guard, others ⟨0⟩ (by decide), code⟩
  · rw [runs Unit (Host.always .null), ran]

end SpawnGuard
