import Mathlib.Data.List.Nodup
import SpawnGuard.Proofs.FirstAppearance

/-!
Bodies whose branches all land, and the same bodies with their labels numbered from zero on by
first appearance. Numbering again changes nothing.
-/
namespace SpawnGuard

namespace Operand

def kind {ℓ : Type} : Operand ℓ → OperandKind
  | none => .none
  | int _ => .int
  | field _ => .field
  | method _ => .method
  | label _ => .label

theorem kind_map {ℓ κ : Type} (rename : ℓ → κ) (operand : Operand ℓ) :
    (operand.map rename).kind = operand.kind := by
  cases operand <;> rfl

end Operand

namespace Instruction

variable {ℓ κ μ : Type}

/-- The operand is of the kind that the operation takes. -/
def Typed (ins : Instruction ℓ) : Prop := ins.operand.kind = ins.opcode.kind

instance (ins : Instruction ℓ) : Decidable ins.Typed :=
  inferInstanceAs (Decidable (ins.operand.kind = ins.opcode.kind))

theorem map_map (first : ℓ → κ) (second : κ → μ) (ins : Instruction ℓ) :
    (ins.map first).map second = ins.map (second ∘ first) := by
  obtain ⟨opcode, operand, labels⟩ := ins
  cases operand <;> simp [map, Operand.map]

theorem Typed.branchTarget? {opcode : Opcode} {target : ℓ} {labels : List ℓ}
    (typed : Typed ⟨opcode, .label target, labels⟩) :
    Instruction.branchTarget? ⟨opcode, .label target, labels⟩ = some target := by
  have branch : opcode.isBranch = true := decide_eq_true typed.symm
  simp [Instruction.branchTarget?, branch]

/-- Renamings that agree on what an instruction mentions give the same instruction. -/
theorem Typed.map_congr {ins : Instruction ℓ} (typed : ins.Typed) {rename other : ℓ → κ}
    (agree : ∀ label ∈ ins.mentions, rename label = other label) :
    ins.map rename = ins.map other := by
  obtain ⟨opcode, operand, labels⟩ := ins
  have attached : labels.map rename = labels.map other :=
    List.map_congr_left fun label inside => agree label (List.mem_append_left _ inside)
  have named : operand.map rename = operand.map other := by
    cases operand with
    | label target =>
      have mentioned : target ∈ mentions ⟨opcode, .label target, labels⟩ := by
        simp [mentions, typed.branchTarget?]
      rw [Operand.map, Operand.map, agree target mentioned]
    | _ => rfl
  rw [map, map, attached, named]

end Instruction

namespace Body

variable {body : Body}

def Typed (body : Body) : Prop := ∀ ins ∈ body.code, ins.Typed

instance (body : Body) : Decidable body.Typed :=
  inferInstanceAs (Decidable (∀ ins ∈ body.code, ins.Typed))

/-- No label is on two places, and every branch lands. -/
structure Linked (code : Code Label) : Prop where
  once : (attached code).Nodup
  landed : ∀ ins ∈ code, ∀ label ∈ ins.branchTarget?, label ∈ attached code

theorem firstRepeat_eq_none {seen labels : List Label} :
    firstRepeat seen labels = none ↔ Listing.Fresh seen labels := by
  induction labels generalizing seen with
  | nil => simp [firstRepeat, Listing.Fresh]
  | cons label rest ih =>
    rw [firstRepeat, Listing.fresh_cons]
    split
    · rename_i again
      simp [again]
    · rename_i fresh
      simp [fresh, ih]

theorem firstDangling_eq_none {present : List Label} {index : Nat} {code : Code Label} :
    firstDangling present index code = none ↔
      ∀ ins ∈ code, ∀ label ∈ ins.branchTarget?, label ∈ present := by
  induction code generalizing index with
  | nil => simp [firstDangling]
  | cons ins rest ih =>
    rw [firstDangling, List.forall_mem_cons]
    cases target : ins.branchTarget? with
    | none => simp [ih]
    | some label =>
      by_cases here : label ∈ present
      · simp [here, ih]
      · simp [here]

theorem validate_eq_ok : body.validate = .ok () ↔ Linked body.code := by
  have parts : Linked body.code ↔ firstRepeat [] (attached body.code) = none ∧
      firstDangling (attached body.code) 0 body.code = none := by
    rw [firstRepeat_eq_none, Listing.fresh_nil, firstDangling_eq_none]
    exact ⟨fun linked => ⟨linked.once, linked.landed⟩, fun ⟨once, landed⟩ => ⟨once, landed⟩⟩
  rw [parts]
  simp only [validate]
  cases firstRepeat [] (attached body.code) with
  | some label => simp
  | none =>
    cases firstDangling (attached body.code) 0 body.code with
    | some entry => simp
    | none => simp

/-- The labels of a body in reading order, those on an instruction before its branch target. -/
def mentioned (body : Body) : List Label := body.code.flatMap Instruction.mentions

theorem mem_mentioned {ins : Instruction Label} (member : ins ∈ body.code) {label : Label}
    (named : label ∈ ins.mentions) : label ∈ body.mentioned :=
  List.mem_flatMap.mpr ⟨ins, member, named⟩

/-- The body with its labels renamed and another next one. -/
def relabel (rename : Label → Label) (next : Nat) (body : Body) : Body :=
  ⟨body.name, body.code.map (Instruction.map rename), next⟩

/-- No two labels of the body are renamed to the same one. -/
def Apart (rename : Label → Label) (body : Body) : Prop :=
  ∀ one ∈ body.mentioned, ∀ two ∈ body.mentioned, rename one = rename two → one = two

instance (rename : Label → Label) (body : Body) : Decidable (body.Apart rename) :=
  inferInstanceAs (Decidable (∀ one ∈ body.mentioned, ∀ two ∈ body.mentioned, _))

def number (body : Body) (label : Label) : Label := ⟨Listing.firstNumber body.mentioned label⟩

/-- The body with its labels numbered from zero on, in the order in which they first appear. -/
def renumbered (body : Body) : Body :=
  ⟨body.name, body.code.map (Instruction.map body.number), body.mentioned.toFinset.card⟩

theorem number_inj {label other : Label} (member : label ∈ body.mentioned) :
    body.number label = body.number other ↔ label = other := by
  rw [number, number, Label.mk.injEq, Listing.firstNumber_inj member]

theorem attached_subset_mentions (code : Code Label) :
    attached code ⊆ code.flatMap Instruction.mentions := by
  intro label inside
  obtain ⟨ins, member, own⟩ := List.mem_flatMap.mp inside
  exact List.mem_flatMap.mpr ⟨ins, member, List.mem_append_left _ own⟩

theorem attached_map (rename : Label → Label) (code : Code Label) :
    attached (code.map (Instruction.map rename)) = (attached code).map rename := by
  simp [attached, List.flatMap_map, List.map_flatMap, Instruction.map]

theorem flatMap_mentions_map {κ : Type} (rename : Label → κ) (code : Code Label) :
    (code.map (Instruction.map rename)).flatMap Instruction.mentions =
      (code.flatMap Instruction.mentions).map rename := by
  simp [List.flatMap_map, List.map_flatMap, Instruction.mentions_map]

/-- Branches go on landing when labels are renamed and stay apart. -/
theorem Linked.map {code : Code Label} (linked : Linked code) {rename : Label → Label}
    (apart : ∀ one ∈ code.flatMap Instruction.mentions,
      ∀ two ∈ code.flatMap Instruction.mentions, rename one = rename two → one = two) :
    Linked (code.map (Instruction.map rename)) where
  once := by
    rw [attached_map]
    refine List.Nodup.map_on (fun one here two there => ?_) linked.once
    exact apart one (attached_subset_mentions code here) two (attached_subset_mentions code there)
  landed := by
    intro ins member label target
    obtain ⟨source, inside, rfl⟩ := List.mem_map.mp member
    rw [Instruction.branchTarget_map] at target
    obtain ⟨old, goes, rfl⟩ := Option.map_eq_some_iff.mp target
    rw [attached_map]
    exact List.mem_map_of_mem (linked.landed source inside old goes)

theorem apart_number (body : Body) : body.Apart body.number :=
  fun _ member _ _ => (number_inj member).mp

section Relabel

variable {rename : Label → Label} (next : Nat)

theorem mentioned_relabel : (body.relabel rename next).mentioned = body.mentioned.map rename :=
  flatMap_mentions_map rename body.code

theorem linked_relabel (linked : Linked body.code) (apart : body.Apart rename) :
    Linked (body.relabel rename next).code :=
  linked.map apart

theorem typed_relabel (typed : body.Typed) : (body.relabel rename next).Typed := by
  intro ins member
  obtain ⟨source, inside, rfl⟩ := List.mem_map.mp member
  exact (Operand.kind_map rename source.operand).trans (typed source inside)

theorem card_relabel (apart : body.Apart rename) :
    (body.relabel rename next).mentioned.toFinset.card = body.mentioned.toFinset.card := by
  rw [mentioned_relabel, Listing.card_map apart]

/-- Numbers by first appearance do not depend on what labels are called. -/
theorem renumbered_relabel (typed : body.Typed) (apart : body.Apart rename) :
    (body.relabel rename next).renumbered = body.renumbered := by
  have same (ins : Instruction Label) (member : ins ∈ body.code) :
      (ins.map rename).map (body.relabel rename next).number = ins.map body.number := by
    rw [Instruction.map_map]
    refine (typed ins member).map_congr fun label named => ?_
    rw [Function.comp_apply, number, mentioned_relabel,
      Listing.firstNumber_map apart (mem_mentioned member named)]
    rfl
  have code : (body.relabel rename next).code.map
      (Instruction.map (body.relabel rename next).number) = body.code.map
        (Instruction.map body.number) := by
    rw [relabel, List.map_map]
    exact List.map_congr_left same
  rw [renumbered, code, card_relabel next apart]
  rfl

end Relabel

end Body

end SpawnGuard
