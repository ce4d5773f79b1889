import SpawnGuard.Proofs.Arrivals
import SpawnGuard.Proofs.GuardedCode
import SpawnGuard.Proofs.Labels

/-!
Steps of the guarded code. Away from the guard it takes the same steps as the code without it,
at shifted positions; whoever enters the site meets the guard, and who branches to it does not.
-/
namespace SpawnGuard

open PatchSite (shift)

variable {σ : Type}

namespace Host

inductive Raises (host : Host σ) (fault : Fault) : Prop
  | call (method : String) (stack : Stack) (state state' : σ)
      (answer : host.call method stack state = (.error fault, state'))
  | loadStatic (field : String) (state state' : σ)
      (answer : host.loadStatic field state = (.error fault, state'))
  | loadField (object : Value) (field : String) (state state' : σ)
      (answer : host.loadField object field state = (.error fault, state'))
  | storeField (object : Value) (field : String) (value : Value) (state state' : σ)
      (answer : host.storeField object field value state = (.error fault, state'))

/-- The faults of the host are all of its own kind, with a text and no position. -/
def Plain (host : Host σ) : Prop := ∀ fault, host.Raises fault → ∃ own, fault = .host own

/-- A call of the method pushes a value of the given truth and does nothing else. -/
def Answers (host : Host σ) (method : String) (truth : Bool) : Prop :=
  ∀ stack state, ∃ value, value.isTrue = truth ∧
    host.call method stack state = (.ok (value :: stack), state)

end Host

def Fault.shift (site : Nat) : Fault → Fault
  | stackUnderflow index opcode => stackUnderflow (PatchSite.shift site index) opcode
  | unresolvedLabel index label => unresolvedLabel (PatchSite.shift site index) label
  | noConstant index => noConstant (PatchSite.shift site index)
  | noTarget index => noTarget (PatchSite.shift site index)
  | missingArgument number => missingArgument number
  | fellOffEnd => fellOffEnd
  | stepLimit limit => stepLimit limit
  | host fault => host fault

namespace Arrival

/-- Where the guarded run is instead: in front of the guard if it enters the site, and otherwise
at the same instruction. -/
def shift (site : Nat) (a : Arrival σ) : Arrival σ :=
  ⟨⟨if a.enters site then site else PatchSite.shift site a.config.pc, a.config.stack,
    a.config.host⟩, a.jumped⟩

variable {site : Nat}

theorem shift_outside {a : Arrival σ} (outside : a.enters site = false) :
    a.shift site =
      ⟨⟨PatchSite.shift site a.config.pc, a.config.stack, a.config.host⟩, a.jumped⟩ := by
  simp [shift, outside]

theorem shift_entry (site : Nat) (state : σ) : shift site (entry state) = entry state := by
  by_cases first : site = 0
  · simp [shift, entry, enters, first]
  · have before : 0 < site := by omega
    have other : 0 ≠ site := by omega
    simp [shift, entry, enters, other, PatchSite.shift_of_lt before]

end Arrival

/-- How a step at a shifted position answers a step of the code without the guard. -/
inductive Step.Follows (host : Host σ) (site : Nat) (jumped : Bool) : Step σ → Step σ → Prop
  | next (c : Config σ) :
      Follows host site jumped (.next c) (.next (Arrival.shift site ⟨c, jumped⟩).config)
  | returned (value : Option Value) (state : σ) :
      Follows host site jumped (.returned value state) (.returned value state)
  | failed (fault : Fault) (state : σ) :
      Follows host site jumped (.failed fault state) (.failed (fault.shift site) state)
  | refused (fault : Fault) (state : σ) (raised : host.Raises fault) :
      Follows host site jumped (.failed fault state) (.failed fault state)

namespace Machine

/-- The second machine runs the code of the first with a guard in front of a site. -/
structure Guarded (site : Nat) (hook : String) (m g : Machine) : Prop where
  inside : site < m.code.length
  fetch : ∀ position ins, m.code[position]? = some ins →
    ∃ labels, g.code[shift site position]? = some { ins with labels }
  leaves : ∀ position, m.code[position]? = none → g.code[shift site position]? = none
  call : g.code[site]? = some ⟨.call, .method hook, []⟩
  skip : ∃ label, g.code[site + 1]? = some ⟨.brfalseS, .label label, []⟩ ∧
    g.labels.lookup label = some (site + 3)
  ret : g.code[site + 2]? = some ⟨.ret, .none, []⟩
  lookup : ∀ ins ∈ m.code, ∀ label, ins.branchTarget? = some label →
    g.labels.lookup label = (m.labels.lookup label).map (shift site)

theorem guarded_ofBody {body : Body} (numbered : body.Numbered) {site : Nat}
    (inside : site < body.code.length) (hook : String) (next : Nat) :
    Guarded site hook (ofBody body) (ofBody
      ⟨body.name, PatchSite.guarded body.code site hook ⟨body.nextLabel⟩, next⟩) := by
  have within : site ≤ body.code.length := by omega
  have unused : ∀ ins ∈ body.code, (⟨body.nextLabel⟩ : Label) ∉ ins.labels := by
    intro ins member attached
    have below := numbered ins member _ (List.mem_append_left _ attached)
    exact Nat.lt_irrefl _ below
  refine ⟨inside, ?_, ?_, ?_, ?_, ?_, ?_⟩
  · intro position ins fetched
    have moved := PatchSite.getElem?_guarded_shift hook ⟨body.nextLabel⟩ within position
    rw [show body.code[position]? = some ins from fetched, Option.map_some] at moved
    by_cases here : position = site
    · rw [if_pos here] at moved
      exact ⟨_, moved⟩
    · rw [if_neg here] at moved
      exact ⟨_, moved⟩
  · intro position left
    have moved := PatchSite.getElem?_guarded_shift hook ⟨body.nextLabel⟩ within position
    rwa [show body.code[position]? = none from left, Option.map_none] at moved
  · exact PatchSite.getElem?_guarded_guard within 0 (by omega)
  · refine ⟨⟨body.nextLabel⟩,
      PatchSite.getElem?_guarded_guard within 1 (by omega), ?_⟩
    exact (Body.lookup_labelIndex _ _).trans (PatchSite.findIdx?_guarded_fresh inside unused)
  · exact PatchSite.getElem?_guarded_guard within 2 (by omega)
  · intro ins member label target
    have below := numbered ins member _ (Instruction.branchTarget_mem_mentions target)
    have other : label ≠ ⟨body.nextLabel⟩ := by
      rintro rfl
      exact Nat.lt_irrefl _ below
    have found := PatchSite.findIdx?_guarded hook within other
    rw [ofBody, ofBody, Body.lookup_labelIndex, Body.lookup_labelIndex]
    exact found

variable {site : Nat} {hook : String} {m g : Machine} {host : Host σ} {args : List Value}

theorem target_eq (m : Machine) (pc : Nat) (label : Label) :
    m.target pc (some label) =
      match m.labels.lookup label with
      | none => .error (.unresolvedLabel pc label)
      | some index => .ok index := rfl

private theorem follows_next (c : Config σ) (stack : Stack) (state : σ) :
    Step.Follows host site false (.next ⟨c.pc + 1, stack, state⟩)
      (.next ⟨shift site c.pc + 1, stack, state⟩) := by
  rw [PatchSite.shift_succ]
  have landing : Step.Follows host site false (.next ⟨c.pc + 1, stack, state⟩) _ := .next _
  simpa [Arrival.shift, Arrival.enters] using landing

private theorem follows_jump (guarded : Guarded site hook m g) {ins : Instruction Label}
    (member : ins ∈ m.code) (pc : Nat) (stack : Stack) (state : σ) :
    Step.Follows host site true (m.jump ins pc stack state)
      (g.jump ins (shift site pc) stack state) := by
  unfold jump
  cases named : ins.branchTarget? with
  | none => exact .failed (.noTarget pc) state
  | some label =>
    rw [target_eq, target_eq, guarded.lookup ins member label named]
    cases m.labels.lookup label with
    | none => exact .failed (.unresolvedLabel pc label) state
    | some index =>
      have landing : Step.Follows host site true (.next ⟨index, stack, state⟩) _ := .next _
      simpa [Arrival.shift, Arrival.enters] using landing

private theorem follows_branchIf (guarded : Guarded site hook m g) {ins : Instruction Label}
    (member : ins ∈ m.code) (wanted : Bool) (c : Config σ) :
    Step.Follows host site (c.stack.head?.any fun condition => condition.isTrue == wanted)
      (m.branchIf wanted ins c)
      (g.branchIf wanted ins ⟨shift site c.pc, c.stack, c.host⟩) := by
  obtain ⟨pc, stack, state⟩ := c
  unfold branchIf
  cases stack with
  | nil => exact .failed (.stackUnderflow pc ins.opcode) state
  | cons condition stack =>
    by_cases taken : condition.isTrue = wanted
    · simpa [taken] using follows_jump guarded member pc stack state
    · have other : (condition.isTrue == wanted) = false := by simpa using taken
      simpa [taken, other] using follows_next ⟨pc, condition :: stack, state⟩ stack state

private theorem follows_pushAnswer (c : Config σ) (stack : Stack)
    {answer : Except Fault Value × σ}
    (raised : ∀ fault state, answer = (.error fault, state) → host.Raises fault) :
    Step.Follows host site false (pushAnswer c.pc stack answer)
      (pushAnswer (shift site c.pc) stack answer) := by
  obtain ⟨fault | value, state⟩ := answer
  · exact .refused fault state (raised fault state rfl)
  · exact follows_next c (value :: stack) state

/-- Away from the guard an instruction does what it did before. -/
theorem execute_shift (guarded : Guarded site hook m g) {ins : Instruction Label}
    (member : ins ∈ m.code) (c : Config σ) :
    Step.Follows host site (ins.branches c.stack) (m.execute host args ins c)
      (g.execute host args ins ⟨shift site c.pc, c.stack, c.host⟩) := by
  cases named : ins.opcode
  all_goals simp only [execute, Instruction.branches, named]
  case nop => exact follows_next c c.stack c.host
  case ldarg0 | ldarg1 =>
    unfold pushArgument
    split
    · exact follows_next c _ c.host
    · exact .failed (.missingArgument _) c.host
  case ldnull | ldcI40 | ldcI41 => exact follows_next c _ c.host
  case ldcI4 =>
    unfold pushConstant
    split
    · exact follows_next c _ c.host
    · exact .failed (.noConstant c.pc) c.host
  case ldsfld =>
    apply follows_pushAnswer
    intro fault state answer
    exact .loadStatic _ _ _ answer
  case ldfld =>
    cases c.stack with
    | nil => exact .failed (.stackUnderflow c.pc _) c.host
    | cons object stack =>
      apply follows_pushAnswer
      intro fault state answer
      exact .loadField _ _ _ _ answer
  case stfld =>
    rcases c.stack with _ | ⟨value, _ | ⟨object, stack⟩⟩
    · exact .failed (.stackUnderflow c.pc _) c.host
    · exact .failed (.stackUnderflow c.pc _) c.host
    · rcases answer : host.storeField object ins.operand.text value c.host with ⟨fault | _, state⟩
      · simp only [answer]
        exact .refused fault state (.storeField _ _ _ _ _ answer)
      · simp only [answer]
        exact follows_next c stack state
  case call | callvirt =>
    rcases answer : host.call ins.operand.text c.stack c.host with ⟨fault | stack, state⟩
    · exact .refused fault state (.call _ _ _ _ answer)
    · exact follows_next c stack state
  case pop =>
    cases c.stack with
    | nil => exact .failed (.stackUnderflow c.pc _) c.host
    | cons top stack => exact follows_next c stack c.host
  case dup =>
    obtain ⟨pc, _ | ⟨top, stack⟩, state⟩ := c
    · exact .failed (.stackUnderflow pc _) state
    · exact follows_next ⟨pc, top :: stack, state⟩ (top :: top :: stack) state
  case ret => exact .returned _ c.host
  case br | brS => exact follows_jump guarded member c.pc c.stack c.host
  case brfalse | brfalseS => simpa using follows_branchIf guarded member false c
  case brtrue | brtrueS => simpa using follows_branchIf guarded member true c

theorem follows_of_fetched (guarded : Guarded site hook m g) {ins : Instruction Label}
    {c : Config σ} (fetched : m.code[c.pc]? = some ins) :
    ∃ ins', g.code[shift site c.pc]? = some ins' ∧ ins'.branches = ins.branches ∧
      Step.Follows host site (ins.branches c.stack) (m.execute host args ins c)
        (g.execute host args ins' ⟨shift site c.pc, c.stack, c.host⟩) := by
  obtain ⟨labels, found⟩ := guarded.fetch c.pc ins fetched
  exact ⟨_, found, rfl, execute_shift guarded (List.mem_of_getElem? fetched) c⟩

end Machine

end SpawnGuard
