import SpawnGuard.Proofs.SoundRuns

/-!
Runs of code whose labels are renamed. If different labels keep different names and every branch
lands, each branch lands where it did before; nothing else in a step looks at a label, so the runs
are the same.
-/
namespace SpawnGuard

variable {σ : Type}

namespace Operand

/-- An operand that is no label does not change. -/
theorem map_of_plain {rename : Label → Label} {operand : Operand Label}
    (plain : operand.kind ≠ .label) : operand.map rename = operand := by
  cases operand with
  | label target => exact absurd rfl plain
  | _ => rfl

end Operand

namespace Body

variable {body : Body} {rename : Label → Label}

private theorem findIdx?_congr {code : Code Label} {test other : Instruction Label → Bool}
    (same : ∀ ins ∈ code, test ins = other ins) : code.findIdx? test = code.findIdx? other := by
  induction code with
  | nil => rfl
  | cons ins rest ih =>
    obtain ⟨here, later⟩ := List.forall_mem_cons.mp same
    rw [List.findIdx?_cons, List.findIdx?_cons, here, ih later]

/-- A label is renamed where it stands. -/
theorem resolve_relabel (apart : body.Apart rename) (next : Nat) {label : Label}
    (named : label ∈ body.mentioned) :
    (body.relabel rename next).resolve (rename label) = body.resolve label := by
  have same : ∀ ins ∈ body.code,
      decide (rename label ∈ (ins.map rename).labels) = decide (label ∈ ins.labels) := by
    intro ins member
    refine decide_eq_decide.mpr ⟨fun renamed => ?_, List.mem_map_of_mem⟩
    obtain ⟨other, attached, equal⟩ := List.mem_map.mp renamed
    have inside := mem_mentioned member (List.mem_append_left _ attached)
    exact apart other inside label named equal ▸ attached
  unfold resolve relabel
  rw [List.findIdx?_map]
  exact findIdx?_congr same

end Body

namespace Machine

variable {m g : Machine} {host : Host σ} {args : List Value} {rename : Label → Label}

/-- The second machine runs the code of the first with its labels renamed. -/
structure Relabelled (rename : Label → Label) (m g : Machine) : Prop where
  sound : m.Sound
  code : g.code = m.code.map (Instruction.map rename)
  lookup : ∀ ins ∈ m.code, ∀ label ∈ ins.branchTarget?,
    g.labels.lookup (rename label) = m.labels.lookup label

theorem relabelled_ofBody {body : Body} (typed : body.Typed) (linked : Body.Linked body.code)
    (apart : body.Apart rename) (next : Nat) :
    Relabelled rename (ofBody body) (ofBody (body.relabel rename next)) where
  sound := sound_ofBody typed linked
  code := rfl
  lookup := by
    intro ins member label target
    rw [ofBody, ofBody, Body.lookup_labelIndex, Body.lookup_labelIndex]
    exact Body.resolve_relabel apart next
      (Body.mem_mentioned member (Instruction.branchTarget_mem_mentions target))

private theorem jump_relabelled (relabelled : Relabelled rename m g) {ins : Instruction Label}
    (member : ins ∈ m.code) (branches : ins.opcode.kind = .label) (pc : Nat) (stack : Stack)
    (state : σ) : g.jump (ins.map rename) pc stack state = m.jump ins pc stack state := by
  obtain ⟨index, lands⟩ := relabelled.sound.target_isOk member branches pc
  have same : g.target pc (ins.map rename).branchTarget? = .ok index := by
    rw [Instruction.branchTarget_map]
    cases target : ins.branchTarget? with
    | none =>
      rw [target] at lands
      cases lands
    | some label =>
      rw [target, target_eq] at lands
      rw [Option.map_some, target_eq, relabelled.lookup ins member label target]
      split at lands
      · cases lands
      · exact lands
  rw [jump, jump, lands, same]

private theorem branchIf_relabelled (relabelled : Relabelled rename m g) {ins : Instruction Label}
    (member : ins ∈ m.code) (branches : ins.opcode.kind = .label) (wanted : Bool) (c : Config σ) :
    g.branchIf wanted (ins.map rename) c = m.branchIf wanted ins c := by
  unfold branchIf
  simp only [jump_relabelled relabelled member branches]
  rfl

theorem execute_relabelled (relabelled : Relabelled rename m g) {ins : Instruction Label}
    (member : ins ∈ m.code) (c : Config σ) :
    g.execute host args (ins.map rename) c = m.execute host args ins c := by
  have typed : ins.operand.kind = ins.opcode.kind := relabelled.sound.typed ins member
  have kept (plain : ins.opcode.kind ≠ .label) : (ins.map rename).operand = ins.operand :=
    Operand.map_of_plain (typed ▸ plain)
  have jumps (branches : ins.opcode.kind = .label) :
      g.jump (ins.map rename) c.pc c.stack c.host = m.jump ins c.pc c.stack c.host :=
    jump_relabelled relabelled member branches c.pc c.stack c.host
  have named : (ins.map rename).opcode = ins.opcode := rfl
  cases operation : ins.opcode
  all_goals simp only [execute, named, operation]
  case ldcI4 | ldsfld | ldfld | stfld | call | callvirt =>
    rw [kept (by rw [operation]; decide)]
  case br | brS => exact jumps (operation ▸ rfl)
  case brfalse | brfalseS => exact branchIf_relabelled relabelled member (operation ▸ rfl) false c
  case brtrue | brtrueS => exact branchIf_relabelled relabelled member (operation ▸ rfl) true c

/-- Code whose labels are renamed runs as it did: with the same result, in as many steps, and with
the same traces in its host. -/
theorem runFrom_relabelled (relabelled : Relabelled rename m g) (taken allowed : Nat)
    (c : Config σ) :
    g.runFrom host args taken allowed c = m.runFrom host args taken allowed c := by
  have moved (pc : Nat) : g.code[pc]? = m.code[pc]?.map (Instruction.map rename) := by
    rw [relabelled.code, List.getElem?_map]
  induction allowed generalizing taken c with
  | zero =>
    cases fetched : m.code[c.pc]? with
    | none => rw [runFrom_of_none fetched, runFrom_of_none (by rw [moved, fetched]; rfl)]
    | some ins =>
      have found : g.code[c.pc]? = some (ins.map rename) := by rw [moved, fetched]; rfl
      rw [runFrom_zero fetched, runFrom_zero found]
  | succ allowed ih =>
    cases fetched : m.code[c.pc]? with
    | none => rw [runFrom_of_none fetched, runFrom_of_none (by rw [moved, fetched]; rfl)]
    | some ins =>
      have found : g.code[c.pc]? = some (ins.map rename) := by rw [moved, fetched]; rfl
      have same : g.execute host args (ins.map rename) c = m.execute host args ins c :=
        execute_relabelled relabelled (List.mem_of_getElem? fetched) c
      cases executed : m.execute host args ins c with
      | next d =>
        rw [runFrom_of_next fetched executed, runFrom_of_next found (same.trans executed), ih]
      | returned value state =>
        rw [runFrom_of_returned fetched executed,
          runFrom_of_returned found (same.trans executed)]
      | failed fault state =>
        rw [runFrom_of_failed fetched executed, runFrom_of_failed found (same.trans executed)]

end Machine

end SpawnGuard
