import NameAdvisor.Proofs.SuggestionSet
import NameAdvisor.Proofs.Text.Pieces
import NameAdvisor.Provider.Answer

/-!
# What an answer suggests

An answer suggests the names between its commas, each at its first place.  Names that are written with commas between
them are suggested as they are, whatever blanks stand around them, and two answers in one suggest what the two do.

## Main definitions

* `Answer.Suggestible`: the pieces of an answer that are suggested.
* `Answer.Clean`: the lists of names that an answer can suggest.
* `Answer.Lists`: the texts that write names with commas between them and blanks around them.
-/

namespace NameAdvisor.Answer

open Text SuggestionSet

/-! ## Pieces -/

theorem pieces_eq (text : String) :
    pieces text = (text.toList.splitOn ',').map fun piece => trim (String.ofList piece) := by
  simp [pieces, split, splitChars_eq_splitOn]

/-- The pieces of two texts with a comma between them are those of both. -/
theorem pieces_append (a b : String) : pieces (a ++ "," ++ b) = pieces a ++ pieces b := by
  simp [pieces, split, splitChars_eq_splitOn, List.splitOn_append_cons_self]

theorem pieces_of_notMem {text : String} (h : ',' ∉ text.toList) : pieces text = [trim text] := by
  simp [pieces, split, splitChars_eq_splitOn, List.splitOn_eq_singleton h]

theorem notMem_of_mem_pieces {text piece : String} (h : piece ∈ pieces text) : ',' ∉ piece.toList := by
  obtain ⟨cut, hcut, rfl⟩ := List.mem_map.mp h
  obtain ⟨cs, hcs, rfl⟩ := List.mem_map.mp hcut
  rw [toList_trim, String.toList_ofList]
  exact fun hmem => notMem_of_mem_splitChars hcs (trimChars_subset cs hmem)

/-- Whether `piece` can be suggested for `current`: it is not empty, holds no blank, and is another name. -/
structure Suggestible (current piece : String) : Prop where
  ne_empty : piece ≠ ""
  unbroken : ∀ c ∈ piece.toList, isBlank c = false
  ne_current : piece ≠ current

theorem isName_iff {piece : String} :
    isName piece = true ↔ piece ≠ "" ∧ ∀ c ∈ piece.toList, isBlank c = false := by
  simp [isName]

theorem suggestible_iff {current piece : String} :
    Suggestible current piece ↔ isName piece = true ∧ piece ≠ current := by
  rw [isName_iff]
  exact ⟨fun h => ⟨⟨h.ne_empty, h.unbroken⟩, h.ne_current⟩, fun h => ⟨h.1.1, h.1.2, h.2⟩⟩

instance (current piece : String) : Decidable (Suggestible current piece) :=
  decidable_of_iff _ suggestible_iff.symm

/-- The pieces that can be suggested are, each at its first place. -/
theorem names_suggestions (text current : String) :
    (suggestions text current).names = ((pieces text).filter (Suggestible current ·)).eraseDups := by
  rw [suggestions, names_ofList, firstSeen_eq_eraseDups, names, List.filter_filter]
  congr 1
  apply List.filter_congr
  intro piece _
  simp [suggestible_iff, Bool.and_comm]

/-! ## Lists of names -/

/-- Different names, all of which can be suggested for `current` and hold no comma. -/
structure Clean (current : String) (names : List String) : Prop where
  nodup : names.Nodup
  suggestible : ∀ name ∈ names, Suggestible current name
  commaFree : ∀ name ∈ names, ',' ∉ name.toList

/-- The text writes the names with commas between them, with blanks around each comma and at both ends. -/
inductive Lists : List String → String → Prop
  | nil {blanks : String} (h : isBlankText blanks = true) : Lists [] blanks
  | last {before name after : String} (hb : isBlankText before = true) (ha : isBlankText after = true) :
      Lists [name] (before ++ name ++ after)
  | cons {before name after next rest : String} {names : List String} (hb : isBlankText before = true)
      (ha : isBlankText after = true) (h : Lists (next :: names) rest) :
      Lists (name :: next :: names) (before ++ name ++ after ++ "," ++ rest)

theorem lists_intercalate (names : List String) : Lists names (",".intercalate names) := by
  have hempty : isBlankText "" = true := rfl
  induction names with
  | nil => exact .nil hempty
  | cons name names ih =>
    cases names with
    | nil => simpa using @Lists.last "" name "" hempty hempty
    | cons next names => simpa using @Lists.cons "" name "" _ _ _ hempty hempty ih

theorem clean_suggestions (text current : String) : Clean current (suggestions text current).names := by
  have hmem : ∀ {name}, name ∈ (suggestions text current).names → name ∈ pieces text ∧ Suggestible current name := by
    intro name hname
    simpa [names_suggestions] using hname
  exact ⟨(sound_ofList current _).nodup, fun name h => (hmem h).2, fun name h => notMem_of_mem_pieces (hmem h).1⟩

theorem isBlank_of_isBlankText {s : String} (h : isBlankText s = true) : ∀ c ∈ s.toList, isBlank c = true :=
  List.all_eq_true.mp h

theorem comma_notMem_of_isBlankText {s : String} (h : isBlankText s = true) : ',' ∉ s.toList :=
  fun hc => absurd (isBlank_of_isBlankText h _ hc) (by decide)

/-- A name with blanks around it is one piece. -/
theorem pieces_padded {before name after : String} (hb : isBlankText before = true)
    (hn : ∀ c ∈ name.toList, isBlank c = false) (hc : ',' ∉ name.toList) (ha : isBlankText after = true) :
    pieces (before ++ name ++ after) = [name] := by
  have hcomma : ',' ∉ (before ++ name ++ after).toList := by
    simp [comma_notMem_of_isBlankText hb, comma_notMem_of_isBlankText ha, hc]
  have htrim : trim (before ++ name ++ after) = name := by
    rw [trim, String.toList_append, String.toList_append,
      trimChars_padded (isBlank_of_isBlankText hb) hn (isBlank_of_isBlankText ha), String.ofList_toList]
  rw [pieces_of_notMem hcomma, htrim]

/-- Names that are written with commas between them are the names in the answer. -/
theorem Lists.names_eq {ns : List String} {text : String} (h : Lists ns text) (hn : ∀ name ∈ ns, isName name = true)
    (hc : ∀ name ∈ ns, ',' ∉ name.toList) : names text = ns := by
  have hpadded : ∀ {before name after : String}, isBlankText before = true → isBlankText after = true →
      isName name = true → ',' ∉ name.toList → pieces (before ++ name ++ after) = [name] :=
    fun hb ha hname hcomma => pieces_padded hb (isName_iff.mp hname).2 hcomma ha
  induction h with
  | @nil blanks h =>
    have htrim : trim blanks = "" := by
      rw [trim, trimChars_of_all_blank (isBlank_of_isBlankText h)]
    rw [names, pieces_of_notMem (comma_notMem_of_isBlankText h), htrim]
    rfl
  | @last before name after hb ha =>
    have hname := hn name List.mem_cons_self
    rw [names, hpadded hb ha hname (hc name List.mem_cons_self), List.filter_cons_of_pos hname, List.filter_nil]
  | @cons before name after next rest ns hb ha _ ih =>
    obtain ⟨hname, hns⟩ := List.forall_mem_cons.mp hn
    obtain ⟨hcomma, hcs⟩ := List.forall_mem_cons.mp hc
    rw [names, pieces_append, hpadded hb ha hname hcomma, List.filter_append, List.filter_cons_of_pos hname,
      List.filter_nil, List.singleton_append]
    exact congrArg (name :: ·) (ih hns hcs)

/-- An answer that lists names that can be suggested suggests just these. -/
theorem Lists.suggestions_eq {current text : String} {ns : List String} (h : Lists ns text) (hc : Clean current ns) :
    suggestions text current = ofList current ns ∧ (suggestions text current).names = ns := by
  have hnames : names text = ns :=
    h.names_eq (fun name hname => (suggestible_iff.mp (hc.suggestible name hname)).1) hc.commaFree
  refine ⟨by rw [suggestions, hnames], ?_⟩
  rw [suggestions, hnames]
  exact names_ofList_eq_self hc.nodup fun hcurrent => (hc.suggestible current hcurrent).ne_current rfl

/-- An answer suggests the pieces between its commas that are not empty, hold no blank and are not the current name, each
at its first place, without the blanks around it.  So an answer that lists such names, with whatever blanks, suggests
just these; what is suggested, written as an answer, is suggested again; and two answers in one suggest what the first
does and then what the second does. -/
theorem suggestions_split_join :
    (∀ text current, (suggestions text current).names =
      (((text.toList.splitOn ',').map fun piece => trim (String.ofList piece)).filter
        (Suggestible current ·)).eraseDups) ∧
    (∀ current ns text, Clean current ns → Lists ns text → (suggestions text current).names = ns) ∧
    (∀ text current,
      suggestions (",".intercalate (suggestions text current).names) current = suggestions text current) ∧
    ∀ a b current, suggestions (a ++ "," ++ b) current =
      (suggestions a current).extend (suggestions b current).names := by
  refine ⟨?_, ?_, ?_, ?_⟩
  · intro text current
    rw [names_suggestions, pieces_eq]
  · intro current ns text hc hl
    exact (hl.suggestions_eq hc).2
  · intro text current
    have hagain := (lists_intercalate _).suggestions_eq (clean_suggestions text current)
    rw [hagain.1]
    exact extend_names_ofList (empty current) (names text)
  · intro a b current
    have hb := extend_names_ofList (suggestions a current) (names b)
    rw [suggestions, current_ofList] at hb
    rw [suggestions, names, pieces_append, List.filter_append, ofList, extend_append]
    exact hb.symm

/-- Names of which one holds an accent, with a tab, a line feed and a wide space around them. -/
theorem suggestions_split_join_of_blanks :
    let text := "\t onClick,toggle_é \n,\u2003menu "
    Clean "click" ["onClick", "toggle_é", "menu"] ∧ Lists ["onClick", "toggle_é", "menu"] text ∧
      (suggestions text "click").names = ["onClick", "toggle_é", "menu"] := by
  intro text
  have hclean : Clean "click" ["onClick", "toggle_é", "menu"] := ⟨by decide, by decide +kernel, by decide +kernel⟩
  have hlists : Lists ["onClick", "toggle_é", "menu"] text :=
    @Lists.cons "\t " _ "" _ _ _ (by decide +kernel) (by decide +kernel)
      (@Lists.cons "" _ " \n" _ _ _ (by decide +kernel) (by decide +kernel)
        (@Lists.last "\u2003" _ " " (by decide +kernel) (by decide +kernel)))
  exact ⟨hclean, hlists, suggestions_split_join.2.1 _ _ text hclean hlists⟩

end NameAdvisor.Answer
