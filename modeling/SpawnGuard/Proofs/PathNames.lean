import SpawnGuard.Files.Path

/-!
The names on a path: what becomes of them when paths are joined, cut and put together again.
-/
namespace SpawnGuard.Path

section Pieces

theorem pieces_ne_nil (text : List Char) : pieces text ≠ [] := by
  cases text with
  | nil => exact List.cons_ne_nil _ _
  | cons c rest =>
    unfold pieces
    split
    · exact List.cons_ne_nil _ _
    · split <;> exact List.cons_ne_nil _ _

theorem pieces_of_notMem {piece : List Char} (plain : '/' ∉ piece) : pieces piece = [piece] := by
  induction piece with
  | nil => rfl
  | cons c rest ih =>
    rw [List.mem_cons, not_or] at plain
    rw [pieces, if_neg (Ne.symm plain.1), ih plain.2]

/-- A slash is where the pieces of one text end and those of another one begin. -/
theorem pieces_append (front back : List Char) :
    pieces (front ++ '/' :: back) = pieces front ++ pieces back := by
  induction front with
  | nil => rfl
  | cons c rest ih =>
    rw [List.cons_append, pieces, pieces, ih]
    split
    · rfl
    · obtain ⟨first, others, same⟩ := List.exists_cons_of_ne_nil (pieces_ne_nil rest)
      rw [same]
      rfl

theorem notMem_of_mem_pieces {text piece : List Char} (listed : piece ∈ pieces text) :
    '/' ∉ piece := by
  induction text generalizing piece with
  | nil =>
    rw [List.mem_singleton.mp listed]
    exact List.not_mem_nil
  | cons c rest ih =>
    rw [pieces] at listed
    split at listed
    · rcases List.mem_cons.mp listed with rfl | later
      · exact List.not_mem_nil
      · exact ih later
    · rename_i other
      obtain ⟨first, others, same⟩ := List.exists_cons_of_ne_nil (pieces_ne_nil rest)
      rw [same] at listed ih
      rcases List.mem_cons.mp listed with rfl | later
      · rw [List.mem_cons, not_or]
        exact ⟨Ne.symm other, ih List.mem_cons_self⟩
      · exact ih (List.mem_cons_of_mem _ later)

theorem intercalate_pieces (text : List Char) : ['/'].intercalate (pieces text) = text := by
  induction text with
  | nil => rfl
  | cons c rest ih =>
    rw [pieces]
    obtain ⟨first, others, same⟩ := List.exists_cons_of_ne_nil (pieces_ne_nil rest)
    rw [same] at ih ⊢
    split
    · rename_i slash
      rw [List.intercalate_cons_cons, ih, slash]
      rfl
    · rw [← ih]
      cases others with
      | nil => rfl
      | cons second others =>
        show ['/'].intercalate ((c :: first) :: second :: others) = _
        rw [List.intercalate_cons_cons, List.intercalate_cons_cons]
        rfl

end Pieces

theorem rawNames_append (front back : String) :
    rawNames ⟨front ++ "/" ++ back⟩ = rawNames ⟨front⟩ ++ rawNames ⟨back⟩ := by
  have text : (front ++ "/" ++ back).toList = front.toList ++ '/' :: back.toList := by
    rw [String.toList_append, String.toList_append, List.append_assoc]
    rfl
  unfold rawNames
  rw [text, pieces_append, List.map_append]

theorem rawNames_of_notMem {name : String} (plain : '/' ∉ name.toList) :
    rawNames ⟨name⟩ = [name] := by
  unfold rawNames
  rw [pieces_of_notMem plain, List.map_singleton, String.ofList_toList]

theorem rawNames_intercalate {names : List String} (named : names ≠ [])
    (plain : ∀ name ∈ names, '/' ∉ name.toList) :
    rawNames ⟨"/".intercalate names⟩ = names := by
  induction names with
  | nil => exact absurd rfl named
  | cons first rest ih =>
    have front := rawNames_of_notMem (plain first List.mem_cons_self)
    cases rest with
    | nil => rwa [String.intercalate_singleton]
    | cons second rest =>
      rw [String.intercalate_cons_cons, rawNames_append, front,
        ih (List.cons_ne_nil _ _) fun name listed => plain name (List.mem_cons_of_mem _ listed)]
      rfl

theorem intercalate_rawNames (path : Path) : "/".intercalate path.rawNames = path.text := by
  apply String.toList_injective
  have names : path.rawNames.map String.toList = pieces path.text.toList := by
    unfold rawNames
    rw [List.map_map]
    exact List.map_id'' (fun _ => String.toList_ofList) _
  rw [String.toList_intercalate, names]
  exact intercalate_pieces path.text.toList

theorem notMem_of_mem_rawNames {path : Path} {name : String} (listed : name ∈ path.rawNames) :
    '/' ∉ name.toList := by
  obtain ⟨piece, found, rfl⟩ := List.mem_map.mp listed
  rw [String.toList_ofList]
  exact notMem_of_mem_pieces found

/-- Whether a name says where a path leads, wherever on the path it stands. -/
def counts (name : String) : Bool := name ≠ "" && name ≠ "."

/-- The names that count, of those between the slashes of a path. -/
def kept : List String → List String
  | "." :: rest => "." :: rest.filter counts
  | names => names.filter counts

theorem names_eq (path : Path) : path.names = kept path.rawNames := rfl

theorem kept_of_ne {first : String} (real : first ≠ ".") (rest : List String) :
    kept (first :: rest) = (first :: rest).filter counts := by
  unfold kept
  split
  · rename_i same
    exact absurd (List.cons.inj same).1 real
  · rfl

theorem kept_append {front : List String} (named : front ≠ []) (back : List String) :
    kept (front ++ back) = kept front ++ back.filter counts := by
  obtain ⟨first, rest, rfl⟩ := List.exists_cons_of_ne_nil named
  by_cases dot : first = "."
  · rw [dot]
    show "." :: (rest ++ back).filter counts = "." :: rest.filter counts ++ back.filter counts
    rw [List.filter_append]
    rfl
  · rw [List.cons_append, kept_of_ne dot, kept_of_ne dot, ← List.cons_append, List.filter_append]

theorem kept_of_counts {names : List String} (counted : ∀ name ∈ names, counts name = true) :
    kept names = names := by
  cases names with
  | nil => rfl
  | cons first rest =>
    have real : first ≠ "." := by
      rintro rfl
      exact absurd (counted "." List.mem_cons_self) (by decide)
    rw [kept_of_ne real, List.filter_eq_self.mpr counted]

theorem mem_kept_of_counts {names : List String} {name : String} (listed : name ∈ names)
    (counted : counts name = true) : name ∈ kept names := by
  unfold kept
  split
  · rcases List.mem_cons.mp listed with rfl | later
    · exact List.mem_cons_self
    · exact List.mem_cons_of_mem _ (List.mem_filter.mpr ⟨later, counted⟩)
  · exact List.mem_filter.mpr ⟨listed, counted⟩

/-- What stands in front of the first slash of an absolute path: an empty name. -/
def slash (absolute : Bool) : List String := if absolute then [""] else []

theorem rawNames_of_isAbsolute {path : Path} (absolute : path.isAbsolute = true) :
    ∃ rest, path.rawNames = "" :: rest := by
  obtain ⟨back, text⟩ := List.head?_eq_some_iff.mp (of_decide_eq_true absolute)
  refine ⟨(pieces back).map String.ofList, ?_⟩
  unfold rawNames
  rw [text, pieces, if_pos rfl]
  rfl

theorem slash_names_sublist (path : Path) :
    (slash path.isAbsolute ++ path.names).Sublist path.rawNames := by
  rw [names_eq]
  cases absolute : path.isAbsolute with
  | true =>
    obtain ⟨rest, first⟩ := rawNames_of_isAbsolute absolute
    rw [first, kept_of_ne (by decide), List.filter_cons_of_neg (by decide)]
    exact List.filter_sublist.cons_cons ""
  | false =>
    show (kept path.rawNames).Sublist path.rawNames
    unfold kept
    split
    · rename_i rest dotted
      rw [dotted]
      exact List.filter_sublist.cons_cons "."
    · exact List.filter_sublist

/-- A name that an entry of a directory can have. -/
structure Plain (name : String) : Prop where
  named : name ≠ ""
  real : name ≠ "."
  inner : name ≠ ".."
  whole : '/' ∉ name.toList

instance (name : String) : Decidable (Plain name) :=
  decidable_of_iff (name ≠ "" ∧ name ≠ "." ∧ name ≠ ".." ∧ '/' ∉ name.toList)
    ⟨fun ⟨named, real, inner, whole⟩ => ⟨named, real, inner, whole⟩,
      fun ⟨named, real, inner, whole⟩ => ⟨named, real, inner, whole⟩⟩

theorem Plain.counts {name : String} (plain : Plain name) : counts name = true := by
  unfold Path.counts
  rw [decide_eq_true plain.named, decide_eq_true plain.real]
  rfl

/-- Whether a path is absolute shows in its first name, if there is one. -/
theorem isAbsolute_append {front : String} (named : front ≠ "") (back : String) :
    isAbsolute ⟨front ++ back⟩ = isAbsolute ⟨front⟩ := by
  have some : front.toList ≠ [] := mt String.toList_eq_nil_iff.mp named
  unfold isAbsolute
  rw [String.toList_append, List.head?_append, List.head?_eq_some_head some, Option.some_or]

section Relative

variable {names : List String}

theorem isAbsolute_ofNames {absolute : Bool} (plain : ∀ name ∈ names, '/' ∉ name.toList)
    (named : ∀ name ∈ names, name ≠ "") : (ofNames absolute names).isAbsolute = absolute := by
  cases absolute with
  | true =>
    unfold ofNames isAbsolute
    rw [if_pos rfl, String.toList_append]
    rfl
  | false =>
    show decide (("" ++ "/".intercalate names).toList.head? = some '/') = false
    rw [String.empty_append, decide_eq_false_iff_not]
    intro slash
    cases names with
    | nil => cases slash
    | cons first rest =>
      have front : first.toList.head? = some '/' := by
        cases rest with
        | nil => rwa [String.intercalate_singleton] at slash
        | cons second rest =>
          have same := isAbsolute_append (named first List.mem_cons_self)
            ("/" ++ "/".intercalate (second :: rest))
          rw [String.intercalate_cons_cons, String.append_assoc] at slash
          exact of_decide_eq_true (same.symm.trans (decide_eq_true slash))
      exact plain first List.mem_cons_self (List.mem_of_head? front)

theorem rawNames_ofNames (absolute : Bool) (some : names ≠ [])
    (plain : ∀ name ∈ names, '/' ∉ name.toList) :
    (ofNames absolute names).rawNames = slash absolute ++ names := by
  cases absolute with
  | true =>
    show rawNames ⟨"" ++ "/" ++ "/".intercalate names⟩ = [""] ++ names
    rw [rawNames_append, rawNames_intercalate some plain]
    rfl
  | false =>
    show rawNames ⟨"" ++ "/".intercalate names⟩ = names
    rw [String.empty_append, rawNames_intercalate some plain]

variable (some : names ≠ []) (plain : ∀ name ∈ names, Plain name) (base : Path)

include some plain

/-- Behind a directory the names of a relative path come as they are. -/
theorem rawNames_join :
    ∃ front, (base.join (ofNames false names)).rawNames = front ++ names ∧
      kept front = base.names := by
  have whole : ∀ name ∈ names, '/' ∉ name.toList := fun name listed => (plain name listed).whole
  have relative : (ofNames false names).isAbsolute = false :=
    isAbsolute_ofNames whole fun name listed => (plain name listed).named
  have back : rawNames ⟨(ofNames false names).text⟩ = names := rawNames_ofNames false some whole
  unfold join
  rw [if_neg (by rw [relative]; exact Bool.false_ne_true)]
  by_cases bare : base.text = ""
  · refine ⟨[], ?_, ?_⟩
    · rw [if_pos (.inl bare), bare, String.empty_append]
      exact back
    · unfold Path.names rawNames
      rw [bare]
      rfl
  by_cases closed : base.text.toList.getLast? = Option.some '/'
  · rw [if_pos (.inr closed)]
    obtain ⟨front, split⟩ := List.getLast?_eq_some_iff.mp closed
    have text : base.text = String.ofList front ++ "/" := by
      apply String.toList_injective
      rw [split, String.toList_append, String.toList_ofList]
      rfl
    have own : base.rawNames = rawNames ⟨String.ofList front⟩ ++ [""] := by
      have same := rawNames_append (String.ofList front) ""
      rw [String.append_empty, ← text] at same
      exact same
    refine ⟨rawNames ⟨String.ofList front⟩, ?_, ?_⟩
    · rw [text, rawNames_append, back]
    · have listed : rawNames ⟨String.ofList front⟩ ≠ [] :=
        mt List.map_eq_nil_iff.mp (pieces_ne_nil _)
      rw [names_eq, own, kept_append listed]
      exact (List.append_nil _).symm
  · rw [if_neg (not_or.mpr ⟨bare, closed⟩)]
    refine ⟨base.rawNames, ?_, rfl⟩
    rw [rawNames_append, back]

theorem names_join : (base.join (ofNames false names)).names = base.names ++ names := by
  obtain ⟨front, raw, same⟩ := rawNames_join some plain base
  have counted : ∀ name ∈ names, counts name = true := fun name listed =>
    (plain name listed).counts
  rw [names_eq, raw, ← same]
  by_cases bare : front = []
  · rw [bare]
    exact kept_of_counts counted
  · rw [kept_append bare, List.filter_eq_self.mpr counted]

omit some in
theorem isAbsolute_join : (base.join (ofNames false names)).isAbsolute = base.isAbsolute := by
  have relative : (ofNames false names).isAbsolute = false :=
    isAbsolute_ofNames (fun name listed => (plain name listed).whole) fun name listed =>
      (plain name listed).named
  unfold join
  rw [if_neg (by rw [relative]; exact Bool.false_ne_true)]
  by_cases bare : base.text = ""
  · rw [if_pos (.inl bare), bare, String.empty_append]
    unfold isAbsolute at relative ⊢
    rw [relative, bare]
    rfl
  · split
    · exact isAbsolute_append bare _
    · rw [String.append_assoc]
      exact isAbsolute_append bare _

theorem fileName?_join : (base.join (ofNames false names)).fileName? = names.getLast? := by
  have listed := plain _ (List.getLast_mem some)
  unfold fileName?
  rw [names_join some plain, List.getLast?_append, List.getLast?_eq_some_getLast some,
    Option.some_or]
  exact if_neg (not_or.mpr ⟨listed.inner, listed.real⟩)

end Relative

section Cut

/-- Names as `Path.names` gives them: a dot stands at most in front, and not on an absolute
path. -/
structure Normal (absolute : Bool) (names : List String) : Prop where
  named : ∀ name ∈ names, name ≠ ""
  whole : ∀ name ∈ names, '/' ∉ name.toList
  real : "." ∉ if absolute then names else names.tail

theorem normal_names (path : Path) : Normal path.isAbsolute path.names := by
  have filtered {names : List String} : "." ∉ names.filter counts := fun listed =>
    absurd (List.mem_filter.mp listed).2 (by decide)
  refine ⟨fun name listed => ?_, fun name listed => ?_, ?_⟩
  · rintro rfl
    rw [names_eq] at listed
    unfold kept at listed
    split at listed
    · rcases List.mem_cons.mp listed with same | later
      · exact absurd same (by decide)
      · exact absurd (List.mem_filter.mp later).2 (by decide)
    · exact absurd (List.mem_filter.mp listed).2 (by decide)
  · exact notMem_of_mem_rawNames
      (path.slash_names_sublist.subset (List.mem_append_right _ listed))
  · rw [names_eq]
    cases absolute : path.isAbsolute with
    | true =>
      -- A text that starts with a slash has an empty name in front, not a dot.
      obtain ⟨rest, first⟩ := rawNames_of_isAbsolute absolute
      rw [first, kept_of_ne (by decide)]
      exact filtered
    | false =>
      show "." ∉ (kept path.rawNames).tail
      unfold kept
      split
      · exact filtered
      · exact mt List.mem_of_mem_tail filtered

theorem Normal.take {absolute : Bool} {names : List String} (normal : Normal absolute names)
    (count : Nat) : Normal absolute (names.take count) := by
  refine ⟨fun name listed => normal.named name (List.mem_of_mem_take listed),
    fun name listed => normal.whole name (List.mem_of_mem_take listed),
    fun dotted => normal.real ?_⟩
  cases absolute with
  | true => exact List.mem_of_mem_take dotted
  | false =>
    cases names with
    | nil => exact absurd dotted (by simp)
    | cons first rest =>
      cases count with
      | zero => exact absurd dotted List.not_mem_nil
      | succ count => exact List.mem_of_mem_take dotted

theorem Normal.names_ofNames {absolute : Bool} {names : List String}
    (normal : Normal absolute names) : (ofNames absolute names).names = names := by
  have counted {some : List String} (fewer : ∀ name ∈ some, name ∈ names) (real : "." ∉ some) :
      ∀ name ∈ some, counts name = true := by
    intro name listed
    unfold counts
    rw [decide_eq_true (normal.named name (fewer name listed)), decide_eq_true]
    · rfl
    · rintro rfl
      exact real listed
  by_cases bare : names = []
  · rw [bare]
    cases absolute <;> decide
  rw [names_eq, rawNames_ofNames absolute bare normal.whole]
  cases absolute with
  | true =>
    show kept ([""] ++ names) = names
    rw [kept_append (List.cons_ne_nil _ _)]
    exact List.filter_eq_self.mpr (counted (fun _ => id) normal.real)
  | false =>
    show kept names = names
    obtain ⟨first, rest, rfl⟩ := List.exists_cons_of_ne_nil bare
    by_cases dot : first = "."
    · rw [dot]
      exact congrArg _ (List.filter_eq_self.mpr
        (counted (fun _ => List.mem_cons_of_mem first) normal.real))
    · refine kept_of_counts (counted (fun _ => id) fun listed => ?_)
      rcases List.mem_cons.mp listed with same | later
      · exact dot same.symm
      · exact normal.real later

end Cut

end SpawnGuard.Path
