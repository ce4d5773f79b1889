import Mathlib.Data.List.Basic
import SpawnGuard.Patch.Transpile

/-!
Where a pattern matches, and what an edit or a patch that succeeded says about the body.
-/
namespace SpawnGuard

namespace Pattern

private theorem getElem?_of_matchesHead {pattern : Pattern} {code : Code Label}
    (matched : matchesHead pattern code = true) {index : Nat} {test : InstructionTest}
    (tested : pattern[index]? = some test) :
    ∃ ins, code[index]? = some ins ∧ test.accepts ins = true := by
  induction pattern generalizing code index with
  | nil => cases tested
  | cons first rest ih =>
    cases code with
    | nil => cases matched
    | cons ins code =>
      obtain ⟨accepted, others⟩ := Bool.and_eq_true_iff.mp matched
      cases index with
      | zero =>
        cases tested
        exact ⟨ins, rfl, accepted⟩
      | succ index => exact ih others tested

theorem getElem?_of_matchesAt {pattern : Pattern} {code : Code Label} {start : Nat}
    (matched : matchesAt pattern code start = true) (index : Nat) {test : InstructionTest}
    (tested : pattern[index]? = some test) :
    ∃ ins, code[start + index]? = some ins ∧ test.accepts ins = true := by
  obtain ⟨_, head⟩ := Bool.and_eq_true_iff.mp matched
  obtain ⟨ins, found, accepted⟩ := getElem?_of_matchesHead head tested
  rw [List.getElem?_drop] at found
  exact ⟨ins, found, accepted⟩

private theorem matchesHead_of_getElem? {pattern : Pattern} {code : Code Label}
    (accepted : ∀ (index : Nat) (test : InstructionTest), pattern[index]? = some test →
      ∃ ins, code[index]? = some ins ∧ test.accepts ins = true) :
    matchesHead pattern code = true := by
  induction pattern generalizing code with
  | nil => rfl
  | cons first rest ih =>
    obtain ⟨ins, found, head⟩ := accepted 0 first rfl
    cases code with
    | nil => cases found
    | cons other code =>
      cases found
      refine Bool.and_eq_true_iff.mpr ⟨head, ih fun index test tested => ?_⟩
      exact accepted (index + 1) test tested

theorem matchesAt_iff {pattern : Pattern} {code : Code Label} {start : Nat} :
    matchesAt pattern code start = true ↔ start ≤ code.length ∧
      ∀ (index : Nat) (test : InstructionTest), pattern[index]? = some test →
        ∃ ins, code[start + index]? = some ins ∧ test.accepts ins = true := by
  constructor
  · intro matched
    refine ⟨of_decide_eq_true (Bool.and_eq_true_iff.mp matched).1, ?_⟩
    exact fun index test => getElem?_of_matchesAt matched index
  · rintro ⟨inside, accepted⟩
    refine Bool.and_eq_true_iff.mpr ⟨decide_eq_true inside, matchesHead_of_getElem? ?_⟩
    intro index test tested
    rw [List.getElem?_drop]
    exact accepted index test tested

theorem opcode_of_matchesAt {pattern : Pattern} {code : Code Label} {start : Nat}
    (matched : matchesAt pattern code start = true) (index : Nat) {test : InstructionTest}
    (tested : pattern[index]? = some test) {ins : Instruction Label}
    (found : code[start + index]? = some ins) : ins.opcode = test.opcode := by
  obtain ⟨other, same, accepted⟩ := getElem?_of_matchesAt matched index tested
  cases found.symm.trans same
  exact of_decide_eq_true (Bool.and_eq_true_iff.mp accepted).1

theorem find?_eq_some {pattern : Pattern} {code : Code Label} {index : Nat} :
    find? pattern code = some index ↔ pattern ≠ [] ∧ index < code.length ∧
      matchesAt pattern code index = true ∧
        ∀ before < index, matchesAt pattern code before = false := by
  unfold find?
  cases pattern with
  | nil => simp
  | cons test tests =>
    simp only [List.isEmpty_cons, Bool.false_eq_true, if_false, List.find?_range_eq_some,
      List.mem_range, Bool.not_eq_true', ne_eq, reduceCtorEq, not_false_eq_true, true_and]
    exact and_left_comm

end Pattern

namespace PatchSite

variable {hook : String} {label : Label} {body patched : Body}

theorem locate?_eq_some {pattern : Pattern} {site : PatchSite}
    (found : locate? body pattern = some site) :
    site.pattern = pattern ∧ site.index < body.code.length ∧
      pattern.matchesAt body.code site.index = true := by
  obtain ⟨index, first, rfl⟩ := Option.map_eq_some_iff.mp found
  unfold Pattern.find? at first
  split at first
  · cases first
  · have member := List.mem_of_find?_eq_some first
    exact ⟨rfl, List.mem_range.mp member, List.find?_some first⟩

theorem insertGuard_eq_some {site : PatchSite} :
    site.insertGuard hook body = .ok (some (label, patched)) ↔
      site.pattern.matchesAt body.code site.index = true ∧ body.nextLabel + 1 < Label.limit ∧
        label = ⟨body.nextLabel⟩ ∧
          patched = ⟨body.name, guarded body.code site.index hook label, body.nextLabel + 1⟩ := by
  unfold insertGuard Body.defineLabel
  by_cases matched : site.pattern.matchesAt body.code site.index = true
  · by_cases room : body.nextLabel + 1 < Label.limit
    · simp only [matched, room, if_true, Except.ok.injEq, Option.some.injEq, Prod.mk.injEq,
        true_and]
      constructor
      · rintro ⟨rfl, rfl⟩
        exact ⟨rfl, rfl⟩
      · rintro ⟨rfl, rfl⟩
        exact ⟨rfl, rfl⟩
    · simp [matched, room]
  · simp [matched]

end PatchSite

/-- A patch that succeeded found the repair tail and put the guard in front of it. -/
theorem transpile_eq_patched {hook : String} {body patched : Body} {index : Nat} {label : Label}
    (done : transpile hook body = .ok (patched, .patched index label)) :
    ∃ site, PatchSite.locate? body repairTail = some site ∧ site.index = index ∧
      site.insertGuard hook body = .ok (some (label, patched)) := by
  unfold transpile at done
  split at done
  · cases done
  · rename_i site found
    refine ⟨site, found, ?_⟩
    split at done
    · cases done
    · cases done
    · rename_i inserted
      cases done
      exact ⟨rfl, inserted⟩

end SpawnGuard
