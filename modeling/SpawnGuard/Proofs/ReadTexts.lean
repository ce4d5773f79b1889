import SpawnGuard.Proofs.PrintedLines
import SpawnGuard.Proofs.ListingGrammar

/-!
The texts of bodies that were read: each is a word of a line or the name that was given, so that
none goes over the end of a line.
-/
namespace SpawnGuard.Listing

theorem stripComment_isPrefix (quoted : Bool) (line : List Char) :
    stripComment quoted line <+: line := by
  fun_induction stripComment quoted line with
  | case1 => exact List.prefix_rfl
  | case4 | case6 => exact List.nil_prefix
  | case2 _ rest ih | case3 rest ih | case5 rest ih | case7 _ _ rest _ _ _ ih =>
    exact List.cons_prefix_cons.mpr ⟨rfl, ih⟩

theorem mem_of_mem_words? {line : List Char} {words : List Word} (read : words? line = some words)
    {word : Word} (member : word ∈ words) {c : Char} (inside : c ∈ word) : c ∈ line := by
  fun_induction words? line generalizing words with
  | case1 =>
    cases read
    cases member
  | case2 first rest _ ih => exact List.mem_cons_of_mem first (ih read member)
  | case3 rest _ _ ih =>
    obtain ⟨others, later, rfl⟩ := Option.map_eq_some_iff.mp read
    refine List.mem_cons_of_mem '"' ?_
    rcases List.mem_cons.mp member with rfl | member
    · exact List.takeWhile_subset _ inside
    · exact List.dropWhile_subset _ (List.mem_of_mem_drop (ih later member))
  | case4 => cases read
  | case5 first rest _ _ ih =>
    obtain ⟨others, later, rfl⟩ := Option.map_eq_some_iff.mp read
    rcases List.mem_cons.mp member with rfl | member
    · rcases List.mem_cons.mp inside with rfl | inside
      · exact List.mem_cons_self
      · exact List.mem_cons_of_mem first (List.takeWhile_subset _ inside)
    · exact List.mem_cons_of_mem first (List.dropWhile_subset _ (ih later member))

theorem mem_of_mem_readWords? {line : List Char} {words : List Word}
    (read : readWords? line = some words) {word : Word} (member : word ∈ words) {c : Char}
    (inside : c ∈ word) : c ∈ line :=
  (stripComment_isPrefix false line).subset (mem_of_mem_words? read member inside)

theorem not_mem_of_mem_lines {text line : List Char} (member : line ∈ lines text) :
    '\n' ∉ line := by
  fun_induction lines text generalizing line with
  | case1 => cases member
  | case2 rest ih | case3 rest ih =>
    rcases List.mem_cons.mp member with rfl | member
    · exact List.not_mem_nil
    · exact ih member
  | case4 c rest feed _ empty ih =>
    cases List.mem_singleton.mp member
    simpa using fun same : '\n' = c => feed same.symm
  | case5 c rest feed _ first others parts ih =>
    rw [parts] at ih
    rcases List.mem_cons.mp member with rfl | member
    · have inner := ih List.mem_cons_self
      simpa [inner] using fun same : '\n' = c => feed same.symm
    · exact ih (List.mem_cons_of_mem first member)

theorem Sentences.exists_line {lines : List (List Char)} {statements : List Statement}
    (sentences : Sentences lines statements) {statement : Statement}
    (member : statement ∈ statements) :
    ∃ line ∈ lines, ∃ words, readWords? line = some words ∧ Means words statement := by
  induction sentences with
  | nil => cases member
  | blank _ _ ih =>
    obtain ⟨line, inside, said⟩ := ih member
    exact ⟨line, List.mem_cons_of_mem _ inside, said⟩
  | line closed _ means _ ih =>
    rcases List.mem_cons.mp member with rfl | member
    · exact ⟨_, List.mem_cons_self, _, closed, means⟩
    · obtain ⟨line, inside, said⟩ := ih member
      exact ⟨line, List.mem_cons_of_mem _ inside, said⟩

/-- The texts of a statement that are printed in quotes. -/
def Statement.texts (statement : Statement) : List String :=
  statement.methodName?.toList ++ (statement.operation?.bind (·.operand.quoted?)).toList

theorem Means.texts {words : List Word} {statement : Statement} (means : Means words statement)
    {text : String} (member : text ∈ statement.texts) : text.toList ∈ words := by
  cases means with
  | method name =>
    cases List.mem_singleton.mp member
    simp
  | labels names => cases member
  | operation names spelt takes =>
    cases takes with
    | field word | method word =>
      cases List.mem_singleton.mp member
      simp
    | none | int | label => cases member

theorem program_mem {pending : List String} {numbered : List Numbered} {ins : Instruction String}
    (member : ins ∈ program pending numbered) :
    ∃ statement ∈ numbered.map (·.statement),
      statement.operation? = some ⟨ins.opcode, ins.operand⟩ := by
  induction numbered generalizing pending with
  | nil => cases member
  | cons head rest ih =>
    obtain ⟨line, statement⟩ := head
    cases goes : statement.operation? with
    | none =>
      simp only [program, goes] at member
      obtain ⟨later, inside, said⟩ := ih member
      exact ⟨later, List.mem_cons_of_mem _ inside, said⟩
    | some operation =>
      simp only [program, goes] at member
      rcases List.mem_cons.mp member with rfl | member
      · exact ⟨statement, List.mem_cons_self, goes⟩
      · obtain ⟨later, inside, said⟩ := ih member
        exact ⟨later, List.mem_cons_of_mem _ inside, said⟩

/-- The texts of a body that was read are texts of its statements, or the name that was given. -/
theorem texts_of_assemble {given : String} {numbered : List Numbered} {body : Body}
    (assembled : assemble given numbered = .ok body) {text : String} (member : text ∈ body.texts) :
    text = given ∨ ∃ statement ∈ numbered.map (·.statement), text ∈ statement.texts := by
  rw [body_of_assemble rfl assembled] at member
  rcases List.mem_cons.mp member with named | member
  · cases last : ((numbered.map (·.statement)).filterMap Statement.methodName?).getLast? with
    | none =>
      rw [last] at named
      exact .inl named
    | some name =>
      rw [last] at named
      cases named
      obtain ⟨statement, inside, said⟩ := List.mem_filterMap.mp (List.mem_of_getLast? last)
      exact .inr ⟨statement, inside, by simp [Statement.texts, said]⟩
  · obtain ⟨ins, inside, quoted⟩ := List.mem_filterMap.mp member
    obtain ⟨source, written, rfl⟩ := List.mem_map.mp inside
    rw [Instruction.map, Operand.quoted?_map] at quoted
    obtain ⟨statement, listed, goes⟩ := program_mem written
    exact .inr ⟨statement, listed, by simp [Statement.texts, goes, quoted]⟩

theorem one_line_of_read {given text : String} {body : Body}
    (accepted : read given text = .ok body) (single : '\n' ∉ given.toList) :
    ∀ text ∈ body.texts, '\n' ∉ text.toList := by
  intro own member feed
  obtain ⟨numbered, done, assembled⟩ := read_eq_ok.mp accepted
  obtain ⟨sentences, _⟩ := readStatements_eq_ok.mp ⟨numbered, done, rfl⟩
  rcases texts_of_assemble assembled member with rfl | ⟨statement, inside, said⟩
  · exact single feed
  · obtain ⟨line, listed, words, closed, means⟩ := sentences.exists_line inside
    exact not_mem_of_mem_lines listed (mem_of_mem_readWords? closed (means.texts said) feed)

end SpawnGuard.Listing
