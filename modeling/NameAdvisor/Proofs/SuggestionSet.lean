import NameAdvisor.SuggestionSet
import Mathlib.Data.List.Nodup
import Mathlib.Data.List.Basic

/-!
# What a set of suggestions holds

A set that was built by insertions never repeats a name and never offers the current one.  Its names are the
first occurrences of what was offered, so that offering a list adds exactly the names of it that are new.

## Main definitions

* `SuggestionSet.Sound`: the invariant that every insertion keeps.
-/

namespace NameAdvisor.SuggestionSet

/-- The names are free of repetitions and of the current name, and the table holds just them. -/
structure Sound (s : SuggestionSet) : Prop where
  current_notMem : s.current ∉ s.names
  nodup : s.names.Nodup
  mem_seen : ∀ name, name ∈ s.seen ↔ name ∈ s.names

theorem sound_empty (current : String) : (empty current).Sound :=
  ⟨List.not_mem_nil, List.nodup_nil, fun _ => Iff.rfl⟩

theorem Sound.admits_iff {s : SuggestionSet} (h : s.Sound) (name : String) :
    s.admits name = true ↔ name ≠ s.current ∧ name ∉ s.names := by
  simp [admits, contains, h.mem_seen]

theorem names_insert_of_admits {s : SuggestionSet} {name : String} (h : s.admits name = true) :
    (s.insert name).names = s.names ++ [name] := by
  simp [insert, h]

theorem insert_of_not_admits {s : SuggestionSet} {name : String} (h : s.admits name = false) :
    s.insert name = s := by
  simp [insert, h]

theorem Sound.insert {s : SuggestionSet} (h : s.Sound) (name : String) : (s.insert name).Sound := by
  by_cases hn : s.admits name
  · obtain ⟨hc, hm⟩ := (h.admits_iff name).1 hn
    refine ⟨?_, ?_, ?_⟩
    · rw [current_insert, names_insert_of_admits hn]
      simpa [h.current_notMem] using hc.symm
    · rw [names_insert_of_admits hn]
      exact h.nodup.append (List.nodup_singleton name) (by simpa using hm)
    · intro other
      rw [names_insert_of_admits hn]
      simp [SuggestionSet.insert, hn, h.mem_seen, or_comm]
  · rw [insert_of_not_admits (by simpa using hn)]
    exact h

theorem Sound.extend {s : SuggestionSet} (h : s.Sound) (names : List String) : (s.extend names).Sound := by
  induction names generalizing s with
  | nil => exact h
  | cons name names ih => exact ih (h.insert name)

theorem sound_ofList (current : String) (names : List String) : (ofList current names).Sound :=
  (sound_empty current).extend names

@[simp] theorem current_ofList (current : String) (names : List String) : (ofList current names).current = current :=
  current_extend (empty current) names

/-! ## First occurrences -/

theorem firstSeen_sublist (seen names : List String) : (firstSeen seen names).Sublist names := by
  fun_induction firstSeen seen names with
  | case1 => exact List.Sublist.refl _
  | case2 seen name rest hs ih => exact ih.cons name
  | case3 seen name rest hs ih => exact ih.cons_cons name

/-- Of what is in the list `seen` only the names that are offered count, not their order or their repetitions. -/
theorem firstSeen_congr {seen seen' names : List String} (h : ∀ name ∈ names, name ∈ seen ↔ name ∈ seen') :
    firstSeen seen names = firstSeen seen' names := by
  induction names generalizing seen seen' with
  | nil => rfl
  | cons name names ih =>
    obtain ⟨hname, hnames⟩ := List.forall_mem_cons.mp h
    have hc : ∀ other ∈ names, other ∈ name :: seen ↔ other ∈ name :: seen' := by
      intro other ho
      simp [hnames other ho]
    simp only [firstSeen, List.contains_iff_mem, hname]
    rw [ih hnames, ih hc]

theorem firstSeen_eq_filter {names : List String} (h : names.Nodup) (seen : List String) :
    firstSeen seen names = names.filter (· ∉ seen) := by
  induction names generalizing seen with
  | nil => rfl
  | cons name names ih =>
    obtain ⟨hn, hr⟩ := List.nodup_cons.1 h
    by_cases hs : name ∈ seen
    · simp [firstSeen, hs, ih hr]
    · have hf : names.filter (· ∉ name :: seen) = names.filter (· ∉ seen) := by
        apply List.filter_congr
        intro other ho
        have : other ≠ name := fun he => hn (he ▸ ho)
        simp [this]
      rw [firstSeen, if_neg (by simpa using hs), ih hr, hf, List.filter_cons_of_pos (by simpa using hs)]

/-- Offering a list adds the first occurrences of its names that are new. -/
theorem Sound.names_extend {s : SuggestionSet} (h : s.Sound) (names : List String) :
    (s.extend names).names = s.names ++ firstSeen (s.current :: s.names) names := by
  induction names generalizing s with
  | nil => simp [firstSeen]
  | cons name names ih =>
    rw [extend_cons, ih (h.insert name), current_insert]
    by_cases hn : s.admits name
    · obtain ⟨hc, hm⟩ := (h.admits_iff name).1 hn
      have hcongr : firstSeen (s.current :: (s.names ++ [name])) names =
          firstSeen (name :: s.current :: s.names) names :=
        firstSeen_congr fun other _ => by simp; tauto
      simp [names_insert_of_admits hn, firstSeen, hc, hm, hcongr]
    · have hm : name ∈ s.current :: s.names := by
        have := (h.admits_iff name).not.1 hn
        simp only [List.mem_cons]
        tauto
      rw [insert_of_not_admits (by simpa using hn), firstSeen, if_pos (by simpa using hm)]

theorem names_ofList (current : String) (names : List String) :
    (ofList current names).names = firstSeen [current] names := by
  simpa [ofList, empty] using (sound_empty current).names_extend names

theorem firstSeen_eq_eraseDups (seen names : List String) :
    firstSeen seen names = (names.filter (· ∉ seen)).eraseDups := by
  fun_induction firstSeen seen names with
  | case1 => rfl
  | case2 seen name rest hs ih => rw [ih, List.filter_cons_of_neg (by simpa using hs)]
  | case3 seen name rest hs ih =>
    rw [ih, List.filter_cons_of_pos (by simpa using hs), List.eraseDups_cons, List.filter_filter]
    congr 2
    apply List.filter_congr
    intro other _
    by_cases ho : other = name <;> simp [ho]

theorem not_admits_insert_self (s : SuggestionSet) (name : String) : (s.insert name).admits name = false := by
  unfold insert
  split
  · simp [admits, contains]
  · simp_all

theorem not_admits_insert {s : SuggestionSet} {name : String} (h : s.admits name = false) (other : String) :
    (s.insert other).admits name = false := by
  unfold insert
  split
  · simp only [admits, contains] at h ⊢
    grind
  · exact h

/-- Names that are not admitted anyway need not be offered. -/
theorem extend_firstSeen {s : SuggestionSet} {seen : List String} (h : ∀ name ∈ seen, s.admits name = false)
    (names : List String) : s.extend (firstSeen seen names) = s.extend names := by
  fun_induction firstSeen seen names generalizing s with
  | case1 => rfl
  | case2 seen name rest hs ih =>
    rw [extend_cons, insert_of_not_admits (h name (by simpa using hs))]
    exact ih h
  | case3 seen name rest hs ih =>
    rw [extend_cons, extend_cons]
    refine ih fun other ho => ?_
    obtain rfl | ho := List.mem_cons.mp ho
    · exact not_admits_insert_self s other
    · exact not_admits_insert (h other ho) name

/-- Offering the names of a set is offering what the set was made from. -/
theorem extend_names_ofList (s : SuggestionSet) (names : List String) :
    s.extend (ofList s.current names).names = s.extend names := by
  rw [names_ofList]
  exact extend_firstSeen (by simp [admits]) names

theorem mem_firstSeen {seen names : List String} {name : String} :
    name ∈ firstSeen seen names ↔ name ∈ names ∧ name ∉ seen := by
  fun_induction firstSeen seen names with
  | case1 => simp
  | case2 seen other rest hs ih => grind [List.contains_iff_mem]
  | case3 seen other rest hs ih => grind [List.contains_iff_mem]

theorem mem_names_ofList {current : String} {names : List String} {name : String} :
    name ∈ (ofList current names).names ↔ name ∈ names ∧ name ≠ current := by
  simp [names_ofList, mem_firstSeen]

/-- Offering names that do not repeat each other, nor the current name, adds those that were not yet there. -/
theorem Sound.names_extend_of_nodup {s : SuggestionSet} (h : s.Sound) {names : List String} (hn : names.Nodup)
    (hc : s.current ∉ names) : (s.extend names).names = s.names ++ names.filter (· ∉ s.names) := by
  rw [h.names_extend, firstSeen_eq_filter hn]
  congr 1
  apply List.filter_congr
  intro name hm
  have : name ≠ s.current := fun he => hc (he ▸ hm)
  simp [this]

theorem names_ofList_append (current : String) (names later : List String) :
    (ofList current (names ++ later)).names =
      (ofList current names).names ++ firstSeen (current :: (ofList current names).names) later := by
  have h := (sound_ofList current names).names_extend later
  rwa [current_ofList, ofList, ← extend_append, ← ofList] at h

/-- Names that neither repeat each other nor the current name are all kept. -/
theorem names_ofList_eq_self {current : String} {names : List String} (hn : names.Nodup) (hc : current ∉ names) :
    (ofList current names).names = names := by
  rw [names_ofList, firstSeen_eq_filter hn, List.filter_eq_self]
  intro name hm
  have : name ≠ current := fun he => hc (he ▸ hm)
  simpa using this

/-- Names that are offered between others neither displace nor reorder these, if what they have in common with the later
ones was offered before. -/
theorem names_ofList_between {current : String} {before added after : List String}
    (h : ∀ name ∈ added, name ∈ after → name ∈ before ∨ name = current) :
    ∃ new later : List String, new.length ≤ added.length ∧
      (ofList current (before ++ after)).names = (ofList current before).names ++ later ∧
      (ofList current (before ++ added ++ after)).names = (ofList current before).names ++ new ++ later := by
  let seen := current :: (ofList current before).names
  refine ⟨firstSeen seen added, _, (firstSeen_sublist seen added).length_le,
    names_ofList_append current before after, ?_⟩
  rw [names_ofList_append current (before ++ added), names_ofList_append current before added]
  congr 1
  refine firstSeen_congr fun name ha => ?_
  have hcommon := fun hn => h name hn ha
  simp only [← names_ofList_append, List.mem_cons, mem_names_ofList, List.mem_append]
  tauto

theorem ofList_cons_ne_nil {current name : String} (h : name ≠ current) (names : List String) :
    (ofList current (name :: names)).names ≠ [] := by
  simp [names_ofList, firstSeen, h]

theorem isEmpty_iff (s : SuggestionSet) : s.isEmpty = true ↔ s.names = [] := by
  simp [isEmpty]

end NameAdvisor.SuggestionSet
