import SpawnGuard.Machine.Message
import SpawnGuard.Proofs.SpawnListing
import SpawnGuard.Proofs.StackedGuards

/-!
Runs of code that hangs together: every operand is of the kind its operation takes and every
branch lands. Such a run never misses a label or a constant, and it returns at a `ret`. What is
read from a listing hangs together, and so does what patches make of it.
-/
namespace SpawnGuard

variable {σ : Type}

/-- The faults of code that does not hang together: a branch to a label that is on no instruction,
or a fault that reads as a branch without a label or a load without a constant. -/
def Fault.Structural (fault : Fault) : Prop :=
  (∃ index label, fault = .unresolvedLabel index label) ∨
    ∃ index, fault.message = (noTarget index).message ∨
      fault.message = (noConstant index).message

namespace Fault

private theorem head?_append {front : String} {c : Char} (first : front.toList.head? = some c)
    (back : String) : (front ++ back).toList.head? = some c := by
  rw [String.toList_append, List.head?_append, first]
  rfl

/-- A fault that does not begin as those of the host do is not one of them by its text. -/
private theorem not_structural_of_head? {fault : Fault} {c : Char}
    (first : fault.message.toList.head? = some c) (other : c ≠ 'r')
    (resolved : ∀ index label, fault ≠ .unresolvedLabel index label) : ¬ fault.Structural := by
  have target (index : Nat) : (noTarget index).message.toList.head? = some 'r' :=
    head?_append (head?_append (by decide) _) _
  have constant (index : Nat) : (noConstant index).message.toList.head? = some 'r' :=
    head?_append (head?_append (by decide) _) _
  rintro (⟨index, label, rfl⟩ | ⟨index, same | same⟩)
  · exact resolved index label rfl
  · rw [same, target] at first
    exact other (Option.some.inj first).symm
  · rw [same, constant] at first
    exact other (Option.some.inj first).symm

/-- The faults of the interpreter that do not speak of the code. -/
inductive Ordinary (limit : Nat) : Fault → Prop
  | stackUnderflow (index : Nat) (opcode : Opcode) : Ordinary limit (.stackUnderflow index opcode)
  | missingArgument (number : Nat) : Ordinary limit (.missingArgument number)
  | fellOffEnd : Ordinary limit .fellOffEnd
  | stepLimit : Ordinary limit (.stepLimit limit)

theorem Ordinary.not_structural {limit : Nat} {fault : Fault} (ordinary : Ordinary limit fault) :
    ¬ fault.Structural := by
  cases ordinary with
  | stackUnderflow index opcode =>
    have first : (Fault.stackUnderflow index opcode).message.toList.head? = some 's' :=
      head?_append (head?_append (head?_append (head?_append (by decide) _) _) _) _
    exact not_structural_of_head? first (by decide) fun _ _ => by simp
  | missingArgument number =>
    have first : (Fault.missingArgument number).message.toList.head? = some 'a' :=
      head?_append (head?_append (by decide) _) _
    exact not_structural_of_head? first (by decide) fun _ _ => by simp
  | fellOffEnd =>
    have first : Fault.fellOffEnd.message.toList.head? = some 'e' := by decide
    exact not_structural_of_head? first (by decide) fun _ _ => by simp
  | stepLimit =>
    have first : (Fault.stepLimit limit).message.toList.head? = some 's' :=
      head?_append (head?_append (by decide) _) _
    exact not_structural_of_head? first (by decide) fun _ _ => by simp

end Fault

namespace Machine

/-- Every operand is of the kind its operation takes, and every branch lands. -/
structure Sound (m : Machine) : Prop where
  typed : ∀ ins ∈ m.code, ins.Typed
  landed : ∀ ins ∈ m.code, ∀ label ∈ ins.branchTarget?, (m.labels.lookup label).isSome

theorem sound_ofBody {body : Body} (typed : body.Typed) (linked : Body.Linked body.code) :
    (ofBody body).Sound where
  typed := typed
  landed := by
    intro ins member label target
    obtain ⟨place, inside, attached⟩ := List.mem_flatMap.mp (linked.landed ins member label target)
    rw [ofBody, Body.lookup_labelIndex, Body.resolve, List.findIdx?_isSome, List.any_eq_true]
    exact ⟨place, inside, decide_eq_true attached⟩

variable {m : Machine} {host : Host σ} {args : List Value}

/-- The ways an instruction at a position can fail. -/
inductive Fails (m : Machine) (host : Host σ) (ins : Instruction Label) (pc : Nat) : Fault → Prop
  | refused {fault : Fault} (raised : host.Raises fault) : Fails m host ins pc fault
  | underflow : Fails m host ins pc (.stackUnderflow pc ins.opcode)
  | argument (number : Nat) : Fails m host ins pc (.missingArgument number)
  | constant (loads : ins.opcode = .ldcI4) (missing : ins.operand.kind ≠ .int) :
      Fails m host ins pc (.noConstant pc)
  | astray {fault : Fault} (branches : ins.opcode.kind = .label)
      (missed : m.target pc ins.branchTarget? = .error fault) : Fails m host ins pc fault

private theorem fails_of_pushAnswer {ins : Instruction Label} {pc : Nat} {stack : Stack}
    {answer : Except Fault Value × σ}
    (raised : ∀ fault state, answer = (.error fault, state) → host.Raises fault)
    {fault : Fault} {state : σ} (failed : pushAnswer pc stack answer = .failed fault state) :
    Fails m host ins pc fault := by
  obtain ⟨_ | value, after⟩ := answer
  · cases failed
    exact .refused (raised _ _ rfl)
  · cases failed

private theorem fails_of_jump {ins : Instruction Label} (branches : ins.opcode.kind = .label)
    {pc : Nat} {stack : Stack} {before state : σ} {fault : Fault}
    (failed : m.jump ins pc stack before = .failed fault state) : Fails m host ins pc fault := by
  unfold jump at failed
  split at failed
  · cases failed
  · rename_i missed
    cases failed
    exact .astray branches missed

private theorem fails_of_branchIf {ins : Instruction Label} (branches : ins.opcode.kind = .label)
    {wanted : Bool} {c : Config σ} {state : σ} {fault : Fault}
    (failed : m.branchIf wanted ins c = .failed fault state) : Fails m host ins c.pc fault := by
  unfold branchIf at failed
  split at failed
  · cases failed
    exact .underflow
  · split at failed
    · exact fails_of_jump branches failed
    · cases failed

theorem fails_of_execute {ins : Instruction Label} {c : Config σ} {fault : Fault} {state : σ}
    (failed : m.execute host args ins c = .failed fault state) : Fails m host ins c.pc fault := by
  cases named : ins.opcode
  all_goals simp only [execute, named] at failed
  case nop | ldnull | ldcI40 | ldcI41 | ret => cases failed
  case ldarg0 | ldarg1 =>
    unfold pushArgument at failed
    split at failed <;> cases failed
    exact .argument _
  case ldcI4 =>
    obtain ⟨opcode, operand, labels⟩ := ins
    cases operand with
    | int value => cases failed
    | none | field name | method name | label target =>
      cases failed
      exact .constant named fun same => by cases same
  case ldsfld =>
    refine fails_of_pushAnswer (fun _ _ answer => ?_) failed
    exact .loadStatic _ _ _ answer
  case ldfld =>
    split at failed
    · cases failed
      exact named ▸ .underflow
    · refine fails_of_pushAnswer (fun _ _ answer => ?_) failed
      exact .loadField _ _ _ _ answer
  case stfld =>
    split at failed
    · split at failed
      · cases failed
      · rename_i answer
        cases failed
        exact .refused (.storeField _ _ _ _ _ answer)
    · cases failed
      exact named ▸ .underflow
  case call | callvirt =>
    split at failed
    · cases failed
    · rename_i answer
      cases failed
      exact .refused (.call _ _ _ _ answer)
  case pop | dup =>
    split at failed <;> cases failed
    exact named ▸ .underflow
  case br | brS => exact fails_of_jump (named ▸ rfl) failed
  case brfalse | brfalseS | brtrue | brtrueS => exact fails_of_branchIf (named ▸ rfl) failed

/-- In sound code no branch goes astray and no load misses its constant. -/
theorem Sound.target_isOk (sound : m.Sound) {ins : Instruction Label} (member : ins ∈ m.code)
    (branches : ins.opcode.kind = .label) (pc : Nat) :
    ∃ index, m.target pc ins.branchTarget? = .ok index := by
  obtain ⟨opcode, operand, labels⟩ := ins
  have typed := sound.typed _ member
  obtain ⟨label, rfl⟩ : ∃ label, operand = .label label := by
    cases operand with
    | label target => exact ⟨target, rfl⟩
    | _ => cases typed.trans branches
  have target := typed.branchTarget?
  obtain ⟨index, found⟩ := Option.isSome_iff_exists.mp (sound.landed _ member label target)
  exact ⟨index, by rw [target, target_eq, found]⟩

theorem Sound.ordinary_of_fails (sound : m.Sound) {ins : Instruction Label}
    (member : ins ∈ m.code) {pc : Nat} {fault : Fault} (fails : Fails m host ins pc fault)
    (limit : Nat) : host.Raises fault ∨ fault.Ordinary limit := by
  cases fails with
  | refused raised => exact .inl raised
  | underflow => exact .inr (.stackUnderflow pc _)
  | argument number => exact .inr (.missingArgument number)
  | constant loads missing =>
    have typed := sound.typed ins member
    rw [Instruction.Typed, loads] at typed
    exact absurd typed missing
  | astray branches missed =>
    obtain ⟨index, lands⟩ := sound.target_isOk member branches pc
    cases lands.symm.trans missed

theorem ret_of_execute {ins : Instruction Label} {c : Config σ} {value : Option Value} {state : σ}
    (returned : m.execute host args ins c = .returned value state) : ins.opcode = .ret := by
  by_contra other
  cases named : ins.opcode
  case ret => exact other named
  all_goals
    simp only [execute, named, pushArgument, pushConstant, pushAnswer, branchIf, jump, push]
      at returned
    repeat' split at returned
    all_goals cases returned

/-- How a run ends that fails only where its host does or by a fault that does not speak of the
code, and that returns at a `ret`. -/
def EndsWell (m : Machine) (host : Host σ) (limit : Nat) : Except Fault Exit → Prop
  | .error fault => host.Raises fault ∨ fault.Ordinary limit
  | .ok exit => ∃ ins, m.code[exit.index]? = some ins ∧ ins.opcode = .ret

theorem Sound.runFrom (sound : m.Sound) (host : Host σ) (args : List Value) (taken allowed : Nat)
    (c : Config σ) :
    m.EndsWell host (taken + allowed) (m.runFrom host args taken allowed c).1 := by
  induction allowed generalizing taken c with
  | zero =>
    cases fetched : m.code[c.pc]? with
    | none =>
      rw [runFrom_of_none fetched]
      exact .inr .fellOffEnd
    | some ins =>
      rw [runFrom_zero fetched]
      exact .inr .stepLimit
  | succ allowed ih =>
    cases fetched : m.code[c.pc]? with
    | none =>
      rw [runFrom_of_none fetched]
      exact .inr .fellOffEnd
    | some ins =>
      cases executed : m.execute host args ins c with
      | next d =>
        rw [runFrom_of_next fetched executed, ← Nat.add_assoc, Nat.add_right_comm]
        exact ih (taken + 1) d
      | returned value state =>
        rw [runFrom_of_returned fetched executed]
        exact ⟨ins, fetched, ret_of_execute executed⟩
      | failed fault state =>
        rw [runFrom_of_failed fetched executed]
        exact sound.ordinary_of_fails (List.mem_of_getElem? fetched) (fails_of_execute executed) _

end Machine

theorem transpile_isOk (hook : String) {body : Body} (room : body.nextLabel + 1 < Label.limit) :
    ∃ patched outcome, transpile hook body = .ok (patched, outcome) ∧
      patched.nextLabel ≤ body.nextLabel + 1 := by
  cases found : repairTail.find? body.code with
  | none => exact ⟨_, _, transpile_of_find?_eq_none hook found, Nat.le_succ _⟩
  | some site => exact ⟨_, _, transpile_of_find? hook found room, Nat.le_refl _⟩

/-- With a label left for each hook, no patch runs out of them. -/
theorem transpileAll_isOk {hooks : List String} {body : Body}
    (room : body.nextLabel + hooks.length < Label.limit) :
    ∃ last outcomes, transpileAll hooks body = .ok (last, outcomes) := by
  induction hooks generalizing body with
  | nil => exact ⟨body, [], rfl⟩
  | cons hook hooks ih =>
    rw [List.length_cons] at room
    have first : body.nextLabel + 1 < Label.limit := by omega
    obtain ⟨patched, outcome, done, next⟩ := transpile_isOk hook first
    have left : patched.nextLabel + hooks.length < Label.limit := by omega
    obtain ⟨last, outcomes, all⟩ := ih left
    refine ⟨last, outcome :: outcomes, ?_⟩
    simp only [transpileAll, done, bind, Except.bind, all]

theorem Body.Fit.transpileAll {hooks : List String} {body last : Body} {outcomes : List Outcome}
    (fit : body.Fit) (done : transpileAll hooks body = .ok (last, outcomes)) : last.Fit := by
  induction hooks generalizing body outcomes with
  | nil =>
    cases done
    exact fit
  | cons hook hooks ih =>
    obtain ⟨⟨patched, outcome⟩, first, done⟩ := bind_eq_ok done
    obtain ⟨⟨final, later⟩, rest, done⟩ := bind_eq_ok done
    cases done
    exact ih (fit.transpile first) rest

/-- What is read from a listing and patched by any hooks in turn validates. No run of it ends for
want of a label or of a constant, unless its host fails so, and where a run returns there is a
`ret`. -/
theorem read_and_patched_runs_soundly {given text : String} {body : Body}
    (accepted : Listing.read given text = .ok body) (hooks : List String) :
    (body.nextLabel + hooks.length < Label.limit →
      ∃ last outcomes, transpileAll hooks body = .ok (last, outcomes)) ∧
    ∀ last outcomes, transpileAll hooks body = .ok (last, outcomes) →
      last.validate = .ok () ∧
      ∀ (σ : Type) (host : Host σ), (∀ fault, host.Raises fault → ¬ fault.Structural) →
        ∀ (args : List Value) (limit : Nat) (state : σ),
          let result := ((Machine.ofBody last).run host args limit state).1
          (∀ fault, result = .error fault → ¬ fault.Structural) ∧
            ∀ exit, result = .ok exit →
              ∃ ins, last.code[exit.index]? = some ins ∧ ins.opcode = .ret := by
  refine ⟨transpileAll_isOk, fun last outcomes done => ?_⟩
  have fit := (Listing.fit_of_read accepted).transpileAll done
  refine ⟨Body.validate_eq_ok.mpr fit.linked, ?_⟩
  intro σ host quiet args limit state result
  have ends := (Machine.sound_ofBody fit.typed fit.linked).runFrom host args 0 limit ⟨0, [], state⟩
  rw [Nat.zero_add] at ends
  change Machine.EndsWell _ host limit result at ends
  constructor
  · intro fault failed
    rw [failed] at ends
    rcases ends with raised | ordinary
    · exact quiet fault raised
    · exact ordinary.not_structural
  · intro exit returned
    rw [returned] at ends
    exact ends

def twiceGuardedSpawnBody : Body := (guardedSpawnBody defaultHook).guarded 12 "Boolean Open()"

/-- The spawn method of the game behind two guards, run on a host that answers everything. -/
theorem spawnBody_patched_twice_runs_soundly :
    Listing.read "SimCellOccupier.OnSpawn" spawnListing = .ok spawnBody ∧
      transpileAll [defaultHook, "Boolean Open()"] spawnBody =
        .ok (twiceGuardedSpawnBody, [.patched 9 ⟨2⟩, .patched 12 ⟨3⟩]) ∧
      (∀ fault, (Host.always .null).Raises fault → ¬ fault.Structural) ∧
      twiceGuardedSpawnBody.validate = .ok () ∧
      ((Machine.ofBody twiceGuardedSpawnBody).run (Host.always .null) [.object "this"] 14 ()).1 =
        .ok ⟨some .null, 20, 14⟩ ∧
      ∃ ins, twiceGuardedSpawnBody.code[20]? = some ins ∧ ins.opcode = .ret := by
  have accepted := read_spawnListing
  have done : transpileAll [defaultHook, "Boolean Open()"] spawnBody =
      .ok (twiceGuardedSpawnBody, [.patched 9 ⟨2⟩, .patched 12 ⟨3⟩]) := by
    decide
  have quiet : ∀ fault, (Host.always .null).Raises fault → ¬ fault.Structural :=
    fun fault raised => absurd raised (Host.not_raises_always .null fault)
  have ran : ((Machine.ofBody twiceGuardedSpawnBody).run (Host.always .null)
      [.object "this"] 14 ()).1 = .ok ⟨some .null, 20, 14⟩ := by
    decide
  obtain ⟨_, soundly⟩ :=
    read_and_patched_runs_soundly accepted [defaultHook, "Boolean Open()"]
  obtain ⟨valid, runs⟩ := soundly _ _ done
  obtain ⟨_, returns⟩ := runs Unit (Host.always .null) quiet [.object "this"] 14 ()
  exact ⟨accepted, done, quiet, valid, ran, returns _ ran⟩

end SpawnGuard
