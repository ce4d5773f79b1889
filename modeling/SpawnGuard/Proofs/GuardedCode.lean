import Mathlib.Data.List.Basic
import SpawnGuard.Patch.Site

/-!
The code with a guard in it. Every instruction of the body keeps its operation and operand and
stands three places further from the site on; every label of the body stays on its instruction,
and the label of the guard is on the one at the site.
-/
namespace SpawnGuard

namespace PatchSite

def shift (site position : Nat) : Nat := if position < site then position else position + 3

theorem shift_of_lt {site position : Nat} (before : position < site) :
    shift site position = position := if_pos before

theorem shift_of_le {site position : Nat} (behind : site ≤ position) :
    shift site position = position + 3 := if_neg (Nat.not_lt.mpr behind)

theorem shift_inj {site p q : Nat} : shift site p = shift site q ↔ p = q := by
  unfold shift
  split <;> split <;> omega

theorem shift_succ (site position : Nat) :
    shift site position + 1 = if position + 1 = site then site else shift site (position + 1) := by
  unfold shift
  split <;> split <;> (try split) <;> omega

variable {code : Code Label} {site : Nat} {hook : String} {fresh label : Label}

theorem getElem?_labelHead (index : Nat) :
    (labelHead fresh code)[index]? = code[index]?.map fun ins =>
      if index = 0 then { ins with labels := ins.labels ++ [fresh] } else ins := by
  cases code with
  | nil => simp [labelHead]
  | cons ins rest => cases index <;> simp [labelHead]

theorem length_guarded (inside : site ≤ code.length) :
    (guarded code site hook fresh).length = code.length + 3 := by
  have head : ∀ rest : Code Label, (labelHead fresh rest).length = rest.length := by
    rintro (_ | ⟨ins, rest⟩) <;> rfl
  simp only [guarded, guard, List.length_append, head, List.length_take_of_le inside,
    List.length_drop, List.length_cons, List.length_nil]
  omega

theorem getElem?_guarded_shift (hook : String) (fresh : Label) (inside : site ≤ code.length)
    (position : Nat) :
    (guarded code site hook fresh)[shift site position]? = code[position]?.map fun ins =>
      if position = site then { ins with labels := ins.labels ++ [fresh] } else ins := by
  unfold guarded
  have front : (code.take site).length = site := List.length_take_of_le inside
  by_cases before : position < site
  · rw [shift_of_lt before, List.append_assoc,
      List.getElem?_append_left (by omega), List.getElem?_take_of_lt before]
    simp [Nat.ne_of_lt before]
  · have behind : site ≤ position := Nat.not_lt.mp before
    have size : (code.take site ++ guard hook fresh).length = site + 3 := by
      simp [front, guard]
    rw [shift_of_le behind, List.getElem?_append_right (by omega), getElem?_labelHead,
      List.getElem?_drop, size]
    have index : site + (position + 3 - (site + 3)) = position := by omega
    have first : position + 3 - (site + 3) = 0 ↔ position = site := by omega
    simp only [index, first]

theorem getElem?_guarded_guard (inside : site ≤ code.length) (index : Nat) (within : index < 3) :
    (guarded code site hook fresh)[site + index]? = (guard hook fresh)[index]? := by
  unfold guarded
  have front : (code.take site).length = site := List.length_take_of_le inside
  rw [List.append_assoc, List.getElem?_append_right (by omega), front,
    List.getElem?_append_left (by simpa [guard] using within), Nat.add_sub_cancel_left]

private theorem findIdx?_labelHead (other : label ≠ fresh) :
    ((labelHead fresh code).findIdx? fun ins => label ∈ ins.labels) =
      code.findIdx? fun ins => label ∈ ins.labels := by
  cases code with
  | nil => rfl
  | cons ins rest => simp [labelHead, List.findIdx?_cons, other]

theorem findIdx?_guarded (hook : String) (inside : site ≤ code.length)
    (other : label ≠ fresh) :
    ((guarded code site hook fresh).findIdx? fun ins => label ∈ ins.labels) =
      (code.findIdx? fun ins => label ∈ ins.labels).map (shift site) := by
  have front : (code.take site).length = site := List.length_take_of_le inside
  conv_rhs => rw [← List.take_append_drop site code]
  unfold guarded
  rw [List.findIdx?_append, List.findIdx?_append, List.findIdx?_append, findIdx?_labelHead other]
  cases found : (code.take site).findIdx? fun ins => label ∈ ins.labels with
  | some index =>
    obtain ⟨bound, _⟩ := List.findIdx?_eq_some_iff_getElem.mp found
    simp [shift_of_lt (front ▸ bound)]
  | none =>
    have skipped : ((guard hook fresh).findIdx? fun ins => label ∈ ins.labels) = none := by
      simp [guard, List.findIdx?_cons]
    rw [skipped]
    simp only [Option.map_none, Option.none_or, Option.map_map, List.length_append, front,
      Function.comp_def]
    congr 1
    funext index
    rw [shift_of_le (Nat.le_add_left site index)]
    rfl

theorem findIdx?_guarded_fresh (inside : site < code.length)
    (unused : ∀ ins ∈ code, fresh ∉ ins.labels) :
    ((guarded code site hook fresh).findIdx? fun ins => fresh ∈ ins.labels) =
      some (site + 3) := by
  have front : (code.take site).length = site := List.length_take_of_le (by omega)
  have before : ((code.take site).findIdx? fun ins => fresh ∈ ins.labels) = none := by
    rw [List.findIdx?_eq_none_iff]
    intro ins member
    simpa using unused ins (List.mem_of_mem_take member)
  unfold guarded
  rw [List.findIdx?_append, List.findIdx?_append, before, List.drop_eq_getElem_cons inside]
  simp [guard, labelHead, List.findIdx?_cons, front, Nat.add_comm]

end PatchSite

end SpawnGuard
