import SpawnGuard.Proofs.Arrivals
import SpawnGuard.Proofs.InsertedGuards

/-!
Three looks at the labels of a body: the table of first places, the search for one label, and the
check of the whole. They go by the same places, and so do the branches of a run, also where a label
is on several instructions or on none.
-/
namespace SpawnGuard

namespace Body

variable {body : Body} {label : Label} {index : Nat}

theorem nodup_noteFirst {table : List (Label × Nat)} (apart : (table.map (·.1)).Nodup)
    (entry : Label × Nat) : ((noteFirst table entry).map (·.1)).Nodup := by
  unfold noteFirst
  split
  · exact apart
  · rename_i unknown
    have absent : entry.1 ∉ table.map (·.1) := by
      intro member
      obtain ⟨noted, inside, same⟩ := List.mem_map.mp member
      exact unknown (List.lookup_isSome_iff.mpr ⟨noted, inside, by simp [same]⟩)
    rw [List.map_append]
    exact List.nodup_append_comm.mp (List.nodup_cons.mpr ⟨absent, apart⟩)

/-- The table has one entry for each label. -/
theorem nodup_labelIndex (body : Body) : (body.labelIndex.map (·.1)).Nodup :=
  List.foldlRecOn (motive := fun table => (table.map (·.1)).Nodup) _ noteFirst List.nodup_nil
    fun _ apart entry _ => nodup_noteFirst apart entry

theorem mem_iff_lookup {table : List (Label × Nat)} (apart : (table.map (·.1)).Nodup) :
    (label, index) ∈ table ↔ table.lookup label = some index := by
  rw [List.lookup_eq_some_iff]
  constructor
  · intro member
    obtain ⟨before, after, rfl⟩ := List.append_of_mem member
    refine ⟨before, after, rfl, fun entry early => ?_⟩
    rw [List.map_append, List.map_cons, List.nodup_append] at apart
    have different := apart.2.2 entry.1 (List.mem_map_of_mem early) label List.mem_cons_self
    simpa using Ne.symm different
  · rintro ⟨before, after, rfl, _⟩
    simp

/-- The search for a label ends at the first instruction it is on. -/
theorem resolve_eq_some : body.resolve label = some index ↔
    ∃ before ins after, body.code = before ++ ins :: after ∧ before.length = index ∧
      label ∈ ins.labels ∧ ∀ other ∈ before, label ∉ other.labels := by
  constructor
  · intro found
    obtain ⟨inside, here, earlier⟩ := List.findIdx?_eq_some_iff_getElem.mp found
    obtain ⟨before, ins, after, split, rfl⟩ := PatchSite.exists_split inside
    simp only [split] at here earlier
    refine ⟨before, ins, after, split, rfl, by simpa using here, fun other member => ?_⟩
    obtain ⟨position, early, rfl⟩ := List.getElem_of_mem member
    simpa [List.getElem_append_left early] using earlier position early
  · rintro ⟨before, ins, after, split, rfl, here, earlier⟩
    have passed : before.findIdx? (fun ins => decide (label ∈ ins.labels)) = none := by
      simpa [List.findIdx?_eq_none_iff] using earlier
    rw [resolve, split, List.findIdx?_append, passed, List.findIdx?_cons]
    simp [here]

theorem mem_attached : label ∈ attached body.code ↔ (body.resolve label).isSome = true := by
  rw [attached, List.mem_flatMap, resolve, List.findIdx?_isSome]
  simp

theorem firstRepeat_eq_some {seen labels : List Label} : firstRepeat seen labels = some label ↔
    ∃ before after, labels = before ++ label :: after ∧ Listing.Fresh seen before ∧
      (label ∈ seen ∨ label ∈ before) := by
  induction labels generalizing seen with
  | nil => simp [firstRepeat]
  | cons head rest ih =>
    by_cases known : head ∈ seen
    · rw [firstRepeat, if_pos known, Option.some.injEq]
      constructor
      · rintro rfl
        exact ⟨[], rest, rfl, ⟨List.nodup_nil, by simp⟩, .inl known⟩
      · rintro ⟨before, after, split, fresh, _⟩
        cases before with
        | nil => exact (List.cons.inj split).1
        | cons first before =>
          obtain ⟨rfl, _⟩ := List.cons.inj split
          exact absurd known (Listing.fresh_cons.mp fresh).1
    · rw [firstRepeat, if_neg known, ih]
      constructor
      · rintro ⟨before, after, rfl, fresh, again⟩
        refine ⟨head :: before, after, rfl, Listing.fresh_cons.mpr ⟨known, fresh⟩, ?_⟩
        simpa [or_assoc, or_left_comm] using again
      · rintro ⟨before, after, split, fresh, again⟩
        cases before with
        | nil =>
          obtain ⟨rfl, _⟩ := List.cons.inj split
          simp [known] at again
        | cons first before =>
          obtain ⟨rfl, rest⟩ := List.cons.inj split
          refine ⟨before, after, rest, (Listing.fresh_cons.mp fresh).2, ?_⟩
          simpa [or_assoc, or_left_comm] using again

private theorem firstDangling_cons {present : List Label} {start : Nat} {ins : Instruction Label}
    {rest : Code Label} : firstDangling present start (ins :: rest) = some (index, label) ↔
      (start = index ∧ ins.branchTarget? = some label ∧ label ∉ present) ∨
        (∀ target ∈ ins.branchTarget?, target ∈ present) ∧
          firstDangling present (start + 1) rest = some (index, label) := by
  rw [firstDangling]
  cases ins.branchTarget? with
  | none => simp
  | some target =>
    by_cases lands : target ∈ present
    · simp only [lands, if_true, Option.mem_some_iff, forall_eq', true_and, Option.some.injEq]
      refine ⟨.inr, Or.rec ?_ id⟩
      rintro ⟨_, rfl, never⟩
      exact absurd lands never
    · simp only [lands, if_false, Option.some.injEq, Prod.mk.injEq, Option.mem_some_iff,
        forall_eq', false_and, or_false]
      constructor
      · rintro ⟨here, rfl⟩
        exact ⟨here, rfl, lands⟩
      · rintro ⟨here, same, _⟩
        exact ⟨here, same⟩

theorem firstDangling_eq_some {present : List Label} {start : Nat} {code : Code Label} :
    firstDangling present start code = some (index, label) ↔
      ∃ before ins after, code = before ++ ins :: after ∧ start + before.length = index ∧
        ins.branchTarget? = some label ∧ label ∉ present ∧
        ∀ other ∈ before, ∀ target ∈ other.branchTarget?, target ∈ present := by
  constructor
  · intro found
    induction code generalizing start with
    | nil => cases found
    | cons ins rest ih =>
      rcases firstDangling_cons.mp found with ⟨rfl, goes, never⟩ | ⟨lands, later⟩
      · exact ⟨[], ins, rest, rfl, rfl, goes, never, by simp⟩
      · obtain ⟨before, stray, after, rfl, place, goes, never, landed⟩ := ih later
        refine ⟨ins :: before, stray, after, rfl, ?_, goes, never,
          List.forall_mem_cons.mpr ⟨lands, landed⟩⟩
        rw [List.length_cons, ← place]
        omega
  · rintro ⟨before, ins, after, rfl, rfl, goes, never, landed⟩
    rw [firstDangling_append, firstDangling_eq_none.mpr landed, Option.none_or]
    exact firstDangling_cons.mpr (.inl ⟨rfl, goes, never⟩)

theorem validate_eq_duplicate : body.validate = .error (.duplicateLabel label) ↔
    firstRepeat [] (attached body.code) = some label := by
  simp only [validate]
  cases firstRepeat [] (attached body.code) with
  | some other => simp
  | none => cases firstDangling (attached body.code) 0 body.code <;> simp

theorem validate_eq_unresolved : body.validate = .error (.unresolvedLabel index label) ↔
    firstRepeat [] (attached body.code) = none ∧
      firstDangling (attached body.code) 0 body.code = some (index, label) := by
  simp only [validate]
  cases firstRepeat [] (attached body.code) with
  | some other => simp
  | none => cases firstDangling (attached body.code) 0 body.code <;> simp [Prod.ext_iff]

end Body

namespace Machine

variable {σ : Type} {host : Host σ} {args : List Value} {ins : Instruction Label} {c : Config σ}

/-- A branch that is taken jumps, whatever it left on the stack. -/
theorem execute_of_branches (m : Machine) (taken : ins.branches c.stack = true) :
    ∃ stack, m.execute host args ins c = m.jump ins c.pc stack c.host := by
  obtain ⟨opcode, operand, labels⟩ := ins
  obtain ⟨pc, stack, state⟩ := c
  cases opcode with
  | br | brS => exact ⟨stack, rfl⟩
  | brfalse | brfalseS | brtrue | brtrueS =>
    cases stack with
    | nil => cases taken
    | cons condition stack =>
      refine ⟨stack, if_pos ?_⟩
      simpa [Instruction.branches] using taken
  | _ => cases taken

/-- A branch that is taken goes to the first place of its target. -/
theorem execute_of_taken (body : Body) (taken : ins.branches c.stack = true) {label : Label}
    (goes : ins.branchTarget? = some label) :
    ∃ stack, (ofBody body).execute host args ins c =
      match body.resolve label with
      | some index => .next ⟨index, stack, c.host⟩
      | none => .failed (.unresolvedLabel c.pc label) c.host := by
  obtain ⟨stack, jumps⟩ := execute_of_branches (ofBody body) taken
  refine ⟨stack, ?_⟩
  rw [jumps, jump, goes, target_eq, ofBody, Body.lookup_labelIndex]
  cases body.resolve label <;> rfl

end Machine

/-- What the three looks at the labels of a body, and the branches of a run, have in common. -/
structure LabelViews (body : Body) : Prop where
  first : ∀ label index, body.resolve label = some index ↔
    ∃ before ins after, body.code = before ++ ins :: after ∧ before.length = index ∧
      label ∈ ins.labels ∧ ∀ other ∈ before, label ∉ other.labels
  entries : (body.labelIndex.map (·.1)).Nodup
  table : ∀ label index, (label, index) ∈ body.labelIndex ↔ body.resolve label = some index
  attached : ∀ label, label ∈ Body.attached body.code ↔ (body.resolve label).isSome = true
  accepted : body.validate = .ok () ↔
    (∀ label ∈ Body.attached body.code, (Body.attached body.code).count label = 1) ∧
      ∀ ins ∈ body.code, ∀ label ∈ ins.branchTarget?, (body.resolve label).isSome = true
  repeated : ∀ label, body.validate = .error (.duplicateLabel label) ↔
    ∃ before after, Body.attached body.code = before ++ label :: after ∧ label ∈ before ∧
      before.Nodup
  stray : ∀ index label, body.validate = .error (.unresolvedLabel index label) ↔
    (Body.attached body.code).Nodup ∧
      ∃ before ins after, body.code = before ++ ins :: after ∧ before.length = index ∧
        ins.branchTarget? = some label ∧ body.resolve label = none ∧
          ∀ other ∈ before, ∀ target ∈ other.branchTarget?, (body.resolve target).isSome = true
  jumps : ∀ {σ : Type} (host : Host σ) (args : List Value) (ins : Instruction Label)
    (c : Config σ) (label : Label), ins.branches c.stack = true →
      ins.branchTarget? = some label →
        ∃ stack, (Machine.ofBody body).execute host args ins c =
          match body.resolve label with
          | some index => .next ⟨index, stack, c.host⟩
          | none => .failed (.unresolvedLabel c.pc label) c.host

/-- The table of first places, the search for a label, the check of a body and the branches of a
run agree on any body. The check accepts if every label is on one place and every branch lands;
otherwise it names the label that is first met again or, if there is none, the first branch that
does not land. -/
theorem label_views_agree (body : Body) : LabelViews body where
  first _ _ := Body.resolve_eq_some
  entries := body.nodup_labelIndex
  table label index := by
    rw [Body.mem_iff_lookup body.nodup_labelIndex, Body.lookup_labelIndex]
  attached _ := Body.mem_attached
  accepted := by
    have once : (Body.attached body.code).Nodup ↔
        ∀ label ∈ Body.attached body.code, (Body.attached body.code).count label = 1 :=
      List.nodup_iff_count_eq_one
    rw [Body.validate_eq_ok, ← once]
    simp only [← Body.mem_attached]
    exact ⟨fun linked => ⟨linked.once, linked.landed⟩, fun ⟨once, landed⟩ => ⟨once, landed⟩⟩
  repeated label := by
    rw [Body.validate_eq_duplicate, Body.firstRepeat_eq_some]
    simp only [Listing.fresh_nil, List.not_mem_nil, false_or, and_comm]
  stray index label := by
    rw [Body.validate_eq_unresolved, Body.firstRepeat_eq_none, Listing.fresh_nil,
      Body.firstDangling_eq_some]
    simp only [Body.mem_attached, Nat.zero_add, Bool.not_eq_true, Option.isSome_eq_false_iff,
      Option.isNone_iff_eq_none]
  jumps _ _ _ _ _ taken goes := Machine.execute_of_taken body taken goes

/-- Of two labels that are each met twice, the one is named whose second place is read first. -/
example : Body.validate ⟨"m", [⟨.nop, .none, [⟨1⟩, ⟨2⟩]⟩, ⟨.br, .label ⟨9⟩, [⟨2⟩, ⟨1⟩]⟩], 10⟩ =
    .error (.duplicateLabel ⟨2⟩) := by
  decide

end SpawnGuard
