import NameAdvisor.Proofs.SuggestionSet

/-!
# Sets of suggestions under any operations

However a set came about, it amounts to the list of all names it was ever offered, each at its first place and the
current name left out.  Its table holds just the names of that list, so whatever the set is asked is answered as the
list would answer it, and sets that compare equal are equal in every respect.

## Main definitions

* `SuggestionSet.Operation`: an insertion of one name or of several.
* `SuggestionSet.built`: the set that some operations make.
-/

namespace NameAdvisor.SuggestionSet

/-- Something that is done to a set. -/
inductive Operation where
  | insert (name : String)
  | extend (names : List String)

/-- The names that an operation offers, in order. -/
def Operation.offers : Operation → List String
  | .insert name => [name]
  | .extend names => names

/-- The set after an operation. -/
def Operation.perform (s : SuggestionSet) : Operation → SuggestionSet
  | .insert name => (s.tryInsert name).2
  | .extend names => s.extend names

/-- The set that some operations make of the empty one. -/
def built (current : String) (ops : List Operation) : SuggestionSet :=
  ops.foldl Operation.perform (empty current)

theorem tryInsert_eq (s : SuggestionSet) (name : String) : s.tryInsert name = (s.admits name, s.insert name) := by
  unfold tryInsert insert
  split <;> simp_all

theorem Operation.perform_eq (s : SuggestionSet) (op : Operation) : op.perform s = s.extend op.offers := by
  cases op with
  | insert name => simp [perform, offers, tryInsert_eq]
  | extend names => rfl

/-- How the names were offered makes no difference. -/
theorem built_eq_ofList (current : String) (ops : List Operation) :
    built current ops = ofList current (ops.flatMap Operation.offers) := by
  have hfold : ∀ s : SuggestionSet, ops.foldl Operation.perform s = s.extend (ops.flatMap Operation.offers) := by
    induction ops with
    | nil => exact fun s => rfl
    | cons op ops ih =>
      intro s
      rw [List.foldl_cons, ih, Operation.perform_eq, List.flatMap_cons, extend_append]
  exact hfold (empty current)

/-! ## The table -/

theorem seen_insert {s : SuggestionSet} (h : s.seen = s.names.reverse) (name : String) :
    (s.insert name).seen = (s.insert name).names.reverse := by
  unfold insert
  split
  · simp [h]
  · exact h

theorem seen_extend {s : SuggestionSet} (h : s.seen = s.names.reverse) (names : List String) :
    (s.extend names).seen = (s.extend names).names.reverse := by
  induction names generalizing s with
  | nil => exact h
  | cons name names ih => exact ih (seen_insert h name)

/-- The table of a set that was built holds its names, the last comer first. -/
theorem seen_built (current : String) (ops : List Operation) :
    (built current ops).seen = (built current ops).names.reverse := by
  rw [built_eq_ofList]
  exact seen_extend (s := empty current) rfl _

/-- The insertion of a name tells whether the list grew. -/
theorem fst_tryInsert_iff (s : SuggestionSet) (name : String) :
    (s.tryInsert name).1 = true ↔ s.size < (s.tryInsert name).2.size := by
  rw [tryInsert_eq]
  cases hs : s.admits name with
  | true => simp [size, names_insert_of_admits hs]
  | false => simp [insert_of_not_admits hs]

/-! ## Equality -/

theorem beq_iff (s t : SuggestionSet) : (s == t) = true ↔ s.current = t.current ∧ s.names = t.names := by
  show (s.current == t.current && s.names == t.names) = true ↔ _
  simp

theorem eq_of_seen_eq {s t : SuggestionSet} (hs : s.seen = s.names.reverse) (ht : t.seen = t.names.reverse)
    (hc : s.current = t.current) (hn : s.names = t.names) : s = t := by
  cases s
  cases t
  simp_all

/-- Whatever operations made a set, its names are the first occurrences of all that was offered but the current name,
in order, and its table, its size and its answers are those of that list.  An insertion says whether the list grew,
offering two lists in turn is offering both as one, and two sets compare equal exactly if their current names and their
lists are equal; then they are the same. -/
theorem built_amounts_to_list (current : String) (ops : List Operation) :
    let s := built current ops
    let distinct := ((ops.flatMap Operation.offers).filter (· ≠ current)).eraseDups
    s.current = current ∧ s.names = distinct ∧ s.seen.Perm distinct ∧
      (∀ name, s.contains name = true ↔ name ∈ distinct) ∧ s.size = distinct.length ∧
      (s.isEmpty = true ↔ distinct = []) ∧
      (∀ name, (s.tryInsert name).1 = true ↔ s.size < (s.tryInsert name).2.size) ∧
      (∀ xs ys, (s.extend xs).extend ys = s.extend (xs ++ ys)) ∧
      ∀ current' ops', let t := built current' ops'
        ((s == t) = true ↔ current = current' ∧ s.names = t.names) ∧ ((s == t) = true ↔ s = t) := by
  intro s distinct
  have hcurrent : ∀ current ops, (built current ops).current = current := by
    intro current ops
    rw [built_eq_ofList, current_ofList]
  have hnames : s.names = distinct := by
    simp only [s, distinct, built_eq_ofList, names_ofList, firstSeen_eq_eraseDups, List.mem_singleton]
  have hseen : s.seen = distinct.reverse := hnames ▸ seen_built current ops
  refine ⟨hcurrent current ops, hnames, ?_, ?_, ?_, ?_, fst_tryInsert_iff s, ?_, ?_⟩
  · rw [hseen]
    exact List.reverse_perm distinct
  · intro name
    simp [contains, hseen]
  · rw [size, hnames]
  · rw [isEmpty_iff, hnames]
  · intro xs ys
    exact (extend_append s xs ys).symm
  · intro current' ops' t
    have hbeq : (s == t) = true ↔ current = current' ∧ s.names = t.names := by
      rw [beq_iff, hcurrent, hcurrent]
    refine ⟨hbeq, hbeq.trans ⟨?_, ?_⟩⟩
    · rintro ⟨hc, hn⟩
      exact eq_of_seen_eq (seen_built current ops) (seen_built current' ops') (by rw [hcurrent, hcurrent, hc]) hn
    · intro he
      have hc : s.current = t.current := by rw [he]
      exact ⟨by rwa [hcurrent, hcurrent] at hc, by rw [he]⟩

end NameAdvisor.SuggestionSet
