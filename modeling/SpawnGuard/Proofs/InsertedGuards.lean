import SpawnGuard.Proofs.GuardContract
import SpawnGuard.Proofs.GuardedBodies
import SpawnGuard.Proofs.PatternMatches

/-!
What an edit does to the body it is applied to, which may be another one than the site was found
in, with labels on several instructions and branches that do not land. Either nothing happens, or
a guard is put in and all that was there moves with its labels.
-/
namespace SpawnGuard

open PatchSite (shift)

namespace PatchSite

/-- The label of the guard, if one was put in, and the body as the edit leaves it. -/
def edit (site : PatchSite) (hook : String) (body : Body) :
    Except Overflow (Option Label × Body) :=
  (site.insertGuard hook body).map fun
    | some (label, patched) => (some label, patched)
    | none => (none, body)

variable {code : Code Label} {site : Nat} {hook : String} {fresh : Label}

theorem exists_split (inside : site < code.length) :
    ∃ before ins after, code = before ++ ins :: after ∧ before.length = site := by
  refine ⟨code.take site, code[site], code.drop (site + 1), ?_, List.length_take_of_le inside.le⟩
  rw [← List.drop_eq_getElem_cons inside, List.take_append_drop]

theorem guarded_split (before after : Code Label) (ins : Instruction Label) (hook : String)
    (fresh : Label) :
    guarded (before ++ ins :: after) before.length hook fresh =
      before ++ guard hook fresh ++ { ins with labels := ins.labels ++ [fresh] } :: after := by
  simp [guarded, labelHead]

/-- A position of the guarded code is that of an old instruction or lies in the guard. -/
theorem shift_or_guard (site position : Nat) :
    (∃ source, position = shift site source) ∨ ∃ index < 3, position = site + index := by
  rcases Nat.lt_or_ge position site with before | behind
  · exact .inl ⟨position, (shift_of_lt before).symm⟩
  · rcases Nat.lt_or_ge position (site + 3) with within | after
    · exact .inr ⟨position - site, by omega, by omega⟩
    · refine .inl ⟨position - 3, ?_⟩
      rw [shift_of_le (by omega)]
      omega

/-- With a label that no branch had for its target, the guard brings in the one branch to it. -/
theorem branchTarget_guarded (inside : site ≤ code.length)
    (unused : ∀ ins ∈ code, ins.branchTarget? ≠ some fresh) (position : Nat) :
    (guarded code site hook fresh)[position]?.bind (·.branchTarget?) = some fresh ↔
      position = site + 1 := by
  rcases shift_or_guard site position with ⟨source, rfl⟩ | ⟨index, within, rfl⟩
  · have apart : shift site source ≠ site + 1 := by
      unfold shift
      split <;> omega
    rw [getElem?_guarded_shift hook fresh inside]
    simp only [apart, iff_false]
    cases fetched : code[source]? with
    | none => simp
    | some ins =>
      have other := unused ins (List.mem_of_getElem? fetched)
      rw [Option.map_some, Option.bind_some]
      split <;> exact other
  · rw [getElem?_guarded_guard inside index within]
    match index, within with
    | 0, _ => simp [guard, Instruction.branchTarget?]
    | 1, _ => simp [guard, Instruction.branchTarget?, Opcode.isBranch, Opcode.kind]
    | 2, _ => simp [guard, Instruction.branchTarget?]

end PatchSite

def BodyError.shift (site : Nat) : BodyError → BodyError
  | unresolvedLabel index label => unresolvedLabel (PatchSite.shift site index) label
  | duplicateLabel label => duplicateLabel label

namespace Body

section Repeats

variable {seen other labels before after : List Label} {fresh : Label}

theorem firstRepeat_congr (same : ∀ label ∈ labels, label ∈ seen ↔ label ∈ other) :
    firstRepeat seen labels = firstRepeat other labels := by
  induction labels generalizing seen other with
  | nil => rfl
  | cons label rest ih =>
    obtain ⟨here, later⟩ := List.forall_mem_cons.mp same
    have next : ∀ item ∈ rest, item ∈ label :: seen ↔ item ∈ label :: other := by
      intro item member
      rw [List.mem_cons, List.mem_cons, later item member]
    simp only [firstRepeat, here, ih next]

/-- One more label that is on no instruction yet is not the one that is found twice. -/
theorem firstRepeat_fresh (unseen : fresh ∉ seen) (early : fresh ∉ before) (late : fresh ∉ after) :
    firstRepeat seen (before ++ fresh :: after) = firstRepeat seen (before ++ after) := by
  induction before generalizing seen with
  | nil =>
    rw [List.nil_append, List.nil_append, firstRepeat, if_neg unseen]
    refine firstRepeat_congr fun label member => ?_
    have apart : label ≠ fresh := fun same => late (same ▸ member)
    simp [apart]
  | cons label before ih =>
    obtain ⟨apart, early⟩ := not_or.mp (mt List.mem_cons.mpr early)
    have unseen : fresh ∉ label :: seen := by simp [apart, unseen]
    simp only [List.cons_append, firstRepeat, ih unseen early]

end Repeats

section Dangling

variable {present other : List Label} {code : Code Label} {site index : Nat}

theorem firstDangling_congr
    (same : ∀ ins ∈ code, ∀ label ∈ ins.branchTarget?, label ∈ present ↔ label ∈ other) :
    firstDangling present index code = firstDangling other index code := by
  induction code generalizing index with
  | nil => rfl
  | cons ins rest ih =>
    obtain ⟨here, later⟩ := List.forall_mem_cons.mp same
    rw [firstDangling, firstDangling, ih later]
    cases target : ins.branchTarget? with
    | none => rfl
    | some label => simp only [here label target]

theorem firstDangling_append (front back : Code Label) :
    firstDangling present index (front ++ back) =
      (firstDangling present index front).or
        (firstDangling present (index + front.length) back) := by
  induction front generalizing index with
  | nil => rfl
  | cons ins front ih =>
    have next : index + (ins :: front).length = index + 1 + front.length := by
      rw [List.length_cons]
      omega
    rw [List.cons_append, firstDangling, firstDangling, ih, next]
    cases ins.branchTarget? with
    | none => rfl
    | some label => by_cases lands : label ∈ present <;> simp [lands]

theorem firstDangling_before (early : index + code.length ≤ site) :
    (firstDangling present index code).map (Prod.map (shift site) id) =
      firstDangling present index code := by
  induction code generalizing index with
  | nil => rfl
  | cons ins rest ih =>
    rw [List.length_cons] at early
    have here : shift site index = index := PatchSite.shift_of_lt (by omega)
    have later : (firstDangling present (index + 1) rest).map (Prod.map (shift site) id) =
        firstDangling present (index + 1) rest := ih (by omega)
    rw [firstDangling]
    cases ins.branchTarget? with
    | none => exact later
    | some label => by_cases lands : label ∈ present <;> simp [lands, later, here]

theorem firstDangling_behind (late : site ≤ index) :
    (firstDangling present index code).map (Prod.map (shift site) id) =
      firstDangling present (index + 3) code := by
  induction code generalizing index with
  | nil => rfl
  | cons ins rest ih =>
    have here : shift site index = index + 3 := PatchSite.shift_of_le late
    have later : (firstDangling present (index + 1) rest).map (Prod.map (shift site) id) =
        firstDangling present (index + 1 + 3) rest := ih (by omega)
    rw [Nat.add_right_comm] at later
    rw [firstDangling, firstDangling]
    cases ins.branchTarget? with
    | none => exact later
    | some label => by_cases lands : label ∈ present <;> simp [lands, later, here]

end Dangling

variable {body : Body} {site : Nat}

theorem Numbered.unattached (numbered : body.Numbered) : ⟨body.nextLabel⟩ ∉ attached body.code := by
  intro used
  obtain ⟨ins, member, named⟩ := List.mem_flatMap.mp used
  exact Nat.lt_irrefl _ (numbered ins member _ (List.mem_append_left _ named))

theorem Numbered.untargeted (numbered : body.Numbered) {ins : Instruction Label}
    (member : ins ∈ body.code) : ins.branchTarget? ≠ some ⟨body.nextLabel⟩ := by
  intro target
  have named := Instruction.branchTarget_mem_mentions target
  exact Nat.lt_irrefl _ (numbered ins member _ named)

theorem firstRepeat_guarded (numbered : body.Numbered) (inside : site < body.code.length)
    (hook : String) :
    firstRepeat [] (attached (body.guarded site hook).code) =
      firstRepeat [] (attached body.code) := by
  obtain ⟨name, code, next⟩ := body
  obtain ⟨before, ins, after, rfl, rfl⟩ := PatchSite.exists_split inside
  have unattached := numbered.unattached
  simp only [attached, List.flatMap_append, List.flatMap_cons, List.mem_append, not_or]
    at unattached
  obtain ⟨early, here, late⟩ := unattached
  have split : attached (guarded before.length hook ⟨name, before ++ ins :: after, next⟩).code =
      (attached before ++ ins.labels) ++ ⟨next⟩ :: attached after := by
    rw [guarded, PatchSite.guarded_split]
    simp [attached, PatchSite.guard]
  have whole : attached (before ++ ins :: after) =
      (attached before ++ ins.labels) ++ attached after := by
    simp [attached]
  rw [split, whole]
  exact firstRepeat_fresh List.not_mem_nil (by simp [attached, early, here]) late

theorem firstDangling_guarded (numbered : body.Numbered) (inside : site < body.code.length)
    (hook : String) :
    firstDangling (attached (body.guarded site hook).code) 0 (body.guarded site hook).code =
      (firstDangling (attached body.code) 0 body.code).map (Prod.map (shift site) id) := by
  have members : (attached (body.guarded site hook).code).Perm
      (⟨body.nextLabel⟩ :: attached body.code) := PatchSite.attached_guarded inside
  have same : ∀ ins ∈ body.code, ∀ label ∈ ins.branchTarget?,
      label ∈ attached (body.guarded site hook).code ↔ label ∈ attached body.code := by
    intro ins member label target
    have apart : label ≠ ⟨body.nextLabel⟩ := fun same => numbered.untargeted member (same ▸ target)
    rw [members.mem_iff, List.mem_cons, or_iff_right apart]
  have present : ⟨body.nextLabel⟩ ∈ attached (body.guarded site hook).code :=
    members.mem_iff.mpr List.mem_cons_self
  rw [← firstDangling_congr same]
  generalize attached (body.guarded site hook).code = labels at present
  obtain ⟨name, code, next⟩ := body
  obtain ⟨before, ins, after, rfl, rfl⟩ := PatchSite.exists_split inside
  -- The three instructions of the guard are passed over, and what is behind them stands later.
  have passed (index : Nat) : firstDangling labels index (PatchSite.guard hook ⟨next⟩) = none := by
    rw [firstDangling_eq_none]
    intro added member label target
    have named := Instruction.branchTarget_mem_mentions (Option.mem_def.mp target)
    rw [(guard_instructions member).2 label named]
    exact present
  have relabelled (index : Nat) : firstDangling labels index
      ({ ins with labels := ins.labels ++ [⟨next⟩] } :: after) =
        firstDangling labels index (ins :: after) := rfl
  rw [guarded, PatchSite.guarded_split, firstDangling_append, firstDangling_append, passed,
    relabelled, firstDangling_append, Option.map_or, firstDangling_before (by omega),
    firstDangling_behind (by omega), Option.or_none, List.length_append, ← Nat.add_assoc]
  rfl

/-- A guard leaves the verdict on a body as it was, at shifted positions. -/
theorem validate_guarded (numbered : body.Numbered) (inside : site < body.code.length)
    (hook : String) :
    (body.guarded site hook).validate = body.validate.mapError (BodyError.shift site) := by
  simp only [validate]
  rw [firstRepeat_guarded numbered inside, firstDangling_guarded numbered inside]
  cases firstRepeat [] (attached body.code) with
  | some label => rfl
  | none => cases firstDangling (attached body.code) 0 body.code <;> rfl

end Body

/-- What a guard at a site makes of a body. Every label is where it was, at its shifted position,
or is on no instruction as before, and the fresh one is on the instruction at the site, with one
branch to it. -/
structure GuardInserted (site : Nat) (hook : String) (body : Body) (label : Label)
    (patched : Body) : Prop where
  fresh : label = ⟨body.nextLabel⟩
  nextLabel : patched.nextLabel = body.nextLabel + 1
  name : patched.name = body.name
  code : ∃ before ins after, body.code = before ++ ins :: after ∧ before.length = site ∧
    patched.code = before ++
      [⟨.call, .method hook, []⟩, ⟨.brfalseS, .label label, []⟩, ⟨.ret, .none, []⟩] ++
        { ins with labels := ins.labels ++ [label] } :: after
  resolve : ∀ other ≠ label, patched.resolve other = (body.resolve other).map (shift site)
  table : ∀ other ≠ label,
    patched.labelIndex.lookup other = (body.labelIndex.lookup other).map (shift site)
  unattached : body.resolve label = none
  attached : patched.resolve label = some (site + 3)
  targeted : ∀ position,
    patched.code[position]?.bind (·.branchTarget?) = some label ↔ position = site + 1
  verdict : patched.validate = body.validate.mapError (BodyError.shift site)

theorem guardInserted_guarded {body : Body} {site : Nat} (numbered : body.Numbered)
    (inside : site < body.code.length) (hook : String) :
    GuardInserted site hook body ⟨body.nextLabel⟩ (body.guarded site hook) := by
  have unused : ∀ ins ∈ body.code, ⟨body.nextLabel⟩ ∉ ins.labels := fun ins member named =>
    numbered.unattached (List.mem_flatMap.mpr ⟨ins, member, named⟩)
  have moved (other : Label) (apart : other ≠ ⟨body.nextLabel⟩) :
      (body.guarded site hook).resolve other = (body.resolve other).map (shift site) :=
    PatchSite.findIdx?_guarded hook inside.le apart
  refine ⟨rfl, rfl, rfl, ?_, moved, ?_, ?_, ?_, ?_, Body.validate_guarded numbered inside hook⟩
  · obtain ⟨before, ins, after, split, rfl⟩ := PatchSite.exists_split inside
    refine ⟨before, ins, after, split, rfl, ?_⟩
    rw [Body.guarded, split]
    exact PatchSite.guarded_split before after ins hook _
  · intro other apart
    rw [Body.lookup_labelIndex, Body.lookup_labelIndex, moved other apart]
  · rw [Body.resolve, List.findIdx?_eq_none_iff]
    intro ins member
    simpa using unused ins member
  · exact PatchSite.findIdx?_guarded_fresh inside unused
  · exact PatchSite.branchTarget_guarded inside.le fun ins => numbered.untargeted

/-- A site found in one body may be used on any other. If its pattern stands at its position there,
a guard is put in and all else stays as it was; if not, nothing happens. -/
theorem edit_exact {origin body : Body} {pattern : Pattern} {site : PatchSite}
    (found : PatchSite.locate? origin pattern = some site) (numbered : body.Numbered)
    (room : body.nextLabel + 1 < Label.limit) (hook : String) :
    (site.pattern.Stands body.code site.index → ∃ label patched,
      site.edit hook body = .ok (some label, patched) ∧
        GuardInserted site.index hook body label patched) ∧
    (¬ site.pattern.Stands body.code site.index → site.edit hook body = .ok (none, body)) := by
  have nonempty : site.pattern ≠ [] := by
    obtain ⟨index, first, rfl⟩ := Option.map_eq_some_iff.mp found
    exact (Pattern.find?_eq_some.mp first).1
  constructor
  · intro stands
    have matched := (Pattern.matchesAt_iff_stands nonempty).mpr stands
    have inserted : site.insertGuard hook body =
        .ok (some (⟨body.nextLabel⟩, body.guarded site.index hook)) :=
      PatchSite.insertGuard_eq_some.mpr ⟨matched, room, rfl, rfl⟩
    refine ⟨_, _, ?_, guardInserted_guarded numbered (stands.lt_length nonempty) hook⟩
    rw [PatchSite.edit, inserted]
    rfl
  · intro gone
    rw [← Pattern.matchesAt_iff_stands nonempty] at gone
    rw [PatchSite.edit, PatchSite.insertGuard, if_neg gone]
    rfl

/-- A body with a branch that does not land, behind an instruction that carries a label. -/
def strayBody : Body where
  name := "stray"
  code :=
    [⟨.nop, .none, [⟨0⟩]⟩, ⟨.nop, .none, []⟩, ⟨.br, .label ⟨0⟩, []⟩, ⟨.nop, .none, []⟩,
      ⟨.dup, .none, [⟨1⟩]⟩, ⟨.br, .label ⟨9⟩, []⟩]
  nextLabel := 10

/-- The site found in the loop fits another body: its labels and its stray branch move, and the
stray branch does not land on the guard. The site does not fit the loop cut short. -/
theorem strayBody_edited :
    PatchSite.locate? loopBody [⟨.dup, .any⟩] = some ⟨4, [⟨.dup, .any⟩]⟩ ∧ strayBody.Numbered ∧
      strayBody.nextLabel + 1 < Label.limit ∧
      strayBody.validate = .error (.unresolvedLabel 5 ⟨9⟩) ∧
      (∃ patched, PatchSite.edit ⟨4, [⟨.dup, .any⟩]⟩ "hook" strayBody = .ok (some ⟨10⟩, patched) ∧
        patched.resolve ⟨0⟩ = some 0 ∧ patched.resolve ⟨1⟩ = some 7 ∧
        patched.resolve ⟨9⟩ = none ∧ patched.resolve ⟨10⟩ = some 7 ∧
        patched.validate = .error (.unresolvedLabel 8 ⟨9⟩)) ∧
      PatchSite.edit ⟨4, [⟨.dup, .any⟩]⟩ "hook" { loopBody with code := loopBody.code.drop 1 } =
        .ok (none, { loopBody with code := loopBody.code.drop 1 }) := by
  have found : PatchSite.locate? loopBody [⟨.dup, .any⟩] = some ⟨4, [⟨.dup, .any⟩]⟩ := by decide
  have numbered : strayBody.Numbered := by decide
  have room : strayBody.nextLabel + 1 < Label.limit := by decide
  have nonempty : ([⟨.dup, .any⟩] : Pattern) ≠ [] := List.cons_ne_nil _ _
  refine ⟨found, numbered, room, by decide, ?_, ?_⟩
  · have stands : Pattern.Stands [⟨.dup, .any⟩] strayBody.code 4 :=
      (Pattern.matchesAt_iff_stands nonempty).mp (by decide)
    obtain ⟨label, patched, edited, inserted⟩ := (edit_exact found numbered room "hook").1 stands
    cases inserted.fresh
    refine ⟨patched, edited, ?_, ?_, ?_, inserted.attached, ?_⟩
    · rw [inserted.resolve _ (by decide)]
      decide
    · rw [inserted.resolve _ (by decide)]
      decide
    · rw [inserted.resolve _ (by decide)]
      decide
    · rw [inserted.verdict]
      decide
  · refine (edit_exact found (by decide) (by decide) "hook").2 fun stands => ?_
    have matched := (Pattern.matchesAt_iff_stands nonempty).mpr stands
    revert matched
    decide

end SpawnGuard
