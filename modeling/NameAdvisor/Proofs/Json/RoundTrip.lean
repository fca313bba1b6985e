import NameAdvisor.Proofs.Json.Layout
import NameAdvisor.Proofs.Json.Tokens

/-!
# Reading back what was written

A reader gets every value back from all of its layouts, as long as the value is not nested too deeply and its numbers
are whole and fit a word.

## Main definitions

* `Json.Readable`: the values that a reader with some levels of nesting takes.
* `Json.ReadsBack`: values that a reader gets back from a layout.
-/

namespace NameAdvisor.Json

/-! ## Blanks -/

theorem skipSpace_append {blanks : List Char} (h : ∀ c ∈ blanks, isSpace c) (s : List Char) :
    skipSpace (blanks ++ s) = skipSpace s := by
  induction blanks with
  | nil => rfl
  | cons c blanks ih =>
    obtain ⟨hc, hb⟩ := List.forall_mem_cons.mp h
    rw [List.cons_append, skipSpace, List.dropWhile_cons_of_pos hc]
    exact ih hb

theorem skipSpace_cons {c : Char} (h : isSpace c = false) (s : List Char) : skipSpace (c :: s) = c :: s := by
  simp [skipSpace, h]

theorem skipSpace_skipSpace (s : List Char) : skipSpace (skipSpace s) = skipSpace s := by
  induction s with
  | nil => rfl
  | cons c s ih =>
    cases h : isSpace c with
    | true =>
      have hs : skipSpace (c :: s) = skipSpace s := by simp [skipSpace, h]
      rw [hs, ih]
    | false => rw [skipSpace_cons h, skipSpace_cons h]

theorem readValue_skipSpace (fuel depth : Nat) (s : List Char) :
    readValue fuel depth (skipSpace s) = readValue fuel depth s := by
  cases fuel with
  | zero => rfl
  | succ fuel => rw [readValue, readValue, skipSpace_skipSpace]

theorem readItems_skipSpace (fuel depth : Nat) (s : List Char) :
    readItems fuel depth (skipSpace s) = readItems fuel depth s := by
  cases fuel with
  | zero => rfl
  | succ fuel => rw [readItems, readItems, readValue_skipSpace]

theorem readMembers_skipSpace (fuel depth : Nat) (s : List Char) :
    readMembers fuel depth (skipSpace s) = readMembers fuel depth s := by
  cases fuel with
  | zero => rfl
  | succ fuel => rw [readMembers, readMembers, skipSpace_skipSpace]

theorem readValue_append {blanks : List Char} (h : ∀ c ∈ blanks, isSpace c) (fuel depth : Nat) (s : List Char) :
    readValue fuel depth (blanks ++ s) = readValue fuel depth s := by
  rw [← readValue_skipSpace, skipSpace_append h, readValue_skipSpace]

/-! ## Values -/

/-- The values that a reader takes with some levels of nesting left. -/
inductive Readable : Nat → Json → Prop
  | null {depth} : Readable depth .null
  | bool {depth} (b : Bool) : Readable depth (.bool b)
  | number {depth} {n : Number} (h : n.IsWord) : Readable depth (.number n)
  | string {depth} (s : String) : Readable depth (.string s)
  | array {depth} {items : List Json} (h : ∀ j ∈ items, Readable (depth + 1) j) : Readable (depth + 2) (.array items)
  | object {depth} {members : Members} (h : ∀ m ∈ members, Readable (depth + 1) m.2) :
    Readable (depth + 2) (.object members)

attribute [simp] Readable.null Readable.bool Readable.string

/-- A reader of a whole text has levels for an array or an object. -/
theorem depthLimit_eq : depthLimit = 126 + 2 :=
  rfl

@[simp] theorem readable_number_iff {depth : Nat} {n : Number} : Readable depth (.number n) ↔ n.IsWord := by
  constructor
  · rintro ⟨⟩
    assumption
  · exact .number

@[simp] theorem readable_array_iff {depth : Nat} {items : List Json} :
    Readable (depth + 2) (.array items) ↔ ∀ j ∈ items, Readable (depth + 1) j := by
  constructor
  · rintro ⟨⟩
    assumption
  · exact .array

@[simp] theorem readable_object_iff {depth : Nat} {members : Members} :
    Readable (depth + 2) (.object members) ↔ ∀ m ∈ members, Readable (depth + 1) m.2 := by
  constructor
  · rintro ⟨⟩
    assumption
  · exact .object

/-- A reader gets the value back from a layout of it, whatever follows. -/
def ReadsBack (l : Layout) (depth : Nat) (j : Json) : Prop :=
  ∀ {fuel level : Nat} {rest : List Char}, (l.chars level j).length ≤ fuel → Closed rest →
    readValue fuel depth (l.chars level j ++ rest) = .ok (j, rest)

theorem isSpace_of_isDigit {c : Char} (h : c.isDigit) : isSpace c = false := by
  cases hs : isSpace c with
  | false => rfl
  | true =>
    have hc : c = ' ' ∨ c = '\n' ∨ c = '\t' ∨ c = '\r' := by simpa [isSpace, or_assoc] using hs
    rcases hc with rfl | rfl | rfl | rfl <;> cases h

/-- The first character of a value is not a blank, and closes nothing. -/
theorem exists_chars_eq_cons (l : Layout) {depth : Nat} {j : Json} (h : Readable depth j) (level : Nat) :
    ∃ c cs, l.chars level j = c :: cs ∧ isSpace c = false ∧ c ≠ ']' := by
  cases h with
  | null => exact ⟨'n', _, by simp only [Layout.chars]; rfl, rfl, by decide⟩
  | bool b =>
    cases b
    · exact ⟨'f', _, by simp only [Layout.chars]; rfl, rfl, by decide⟩
    · exact ⟨'t', _, by simp only [Layout.chars]; rfl, rfl, by decide⟩
  | string s => exact ⟨'"', _, by simp only [Layout.chars]; rfl, rfl, by decide⟩
  | number h =>
    have hclosed : Closed [] := by simp [Closed]
    obtain ⟨c, cs, ht, ⟨hd, -⟩ | ⟨rfl, -⟩⟩ := readNumber_text h hclosed
    · refine ⟨c, cs, by simp only [Layout.chars, ht], isSpace_of_isDigit hd, ?_⟩
      rintro rfl
      cases hd
    · exact ⟨'-', cs, by simp only [Layout.chars, ht], rfl, by decide⟩
  | @array _ items h =>
    cases items
    · exact ⟨'[', _, by simp only [Layout.chars]; rfl, rfl, by decide⟩
    · exact ⟨'[', _, by simp only [Layout.chars]; rfl, rfl, by decide⟩
  | @object _ members h =>
    cases members
    · exact ⟨'\x7b', _, by simp only [Layout.chars]; rfl, rfl, by decide⟩
    · exact ⟨'\x7b', _, by simp only [Layout.chars]; rfl, rfl, by decide⟩

theorem readValue_string (fuel depth : Nat) (s : String) (rest : List Char) :
    readValue (fuel + 1) depth (stringChars s ++ rest) = .ok (.string s, rest) := by
  obtain ⟨tail, ht, hr⟩ := exists_stringChars_eq s rest
  rw [ht, readValue, skipSpace_cons rfl]
  simp only [hr]
  rfl

theorem readValue_number {n : Number} (h : n.IsWord) (fuel depth : Nat) {rest : List Char} (hr : Closed rest) :
    readValue (fuel + 1) depth (n.text.toList ++ rest) = .ok (.number n, rest) := by
  obtain ⟨c, cs, ht, ⟨hd, hread⟩ | ⟨rfl, hread⟩⟩ := readNumber_text h hr
  · rw [List.cons_append] at hread
    rw [ht, List.cons_append, readValue, skipSpace_cons (isSpace_of_isDigit hd)]
    -- a digit is none of the characters that announce another value
    split
    case h_1 h => cases h
    case h_9 h =>
      obtain ⟨rfl, rfl⟩ := List.cons.inj h
      rw [if_pos hd, hread]
      rfl
    all_goals
      next h =>
        obtain ⟨rfl, -⟩ := List.cons.inj h
        cases hd
  · rw [ht, List.cons_append, readValue, skipSpace_cons rfl]
    simp only [hread]
    rfl

theorem closed_cons {c : Char} (h : c = ',' ∨ c = ']' ∨ c = '\x7d') (rest : List Char) : Closed (c :: rest) := by
  intro c' hc
  obtain rfl : c = c' := by simpa using hc
  rcases h with rfl | rfl | rfl <;> decide

theorem closed_append {blanks s : List Char} (hb : ∀ c ∈ blanks, isSpace c) (hs : Closed s) : Closed (blanks ++ s) := by
  cases blanks with
  | nil => exact hs
  | cons c blanks =>
    intro c' hc
    obtain rfl : c = c' := by simpa using hc
    have h := hb c List.mem_cons_self
    have hc : c = ' ' ∨ c = '\n' ∨ c = '\t' ∨ c = '\r' := by simpa [isSpace, or_assoc] using h
    rcases hc with rfl | rfl | rfl | rfl <;> decide

section Sequences

variable {l : Layout} {depth : Nat} {blanks : List Char}

/-- What is read after an item says whether there are more. -/
def afterItem (fuel depth : Nat) (j : Json) (tail : List Char) : Read (List Json) :=
  match skipSpace tail with
  | [] => .error .incomplete
  | ']' :: rest => .ok ([j], rest)
  | ',' :: rest => (readItems fuel depth rest).map fun (items, rest) => (j :: items, rest)
  | _ => .error .malformed

theorem readItems_item {j : Json} (h : ReadsBack l depth j) {fuel level : Nat} (hf : (l.chars level j).length ≤ fuel)
    {tail : List Char} (ht : Closed tail) :
    readItems (fuel + 1) depth (l.line level ++ (l.chars level j ++ tail)) = afterItem fuel depth j tail := by
  rw [readItems, readValue_append (fun _ => l.isSpace_of_mem_line), h hf ht]
  rfl

theorem readItems_itemChars {items : List Json} (h : ∀ j ∈ items, ReadsBack l depth j) (hne : items ≠ [])
    (hb : ∀ c ∈ blanks, isSpace c) {fuel level : Nat} (hf : (l.itemChars level items).length < fuel)
    (rest : List Char) :
    readItems fuel depth (l.itemChars level items ++ blanks ++ ']' :: rest) = .ok (items, rest) := by
  induction items generalizing fuel with
  | nil => exact absurd rfl hne
  | cons j items ih =>
    obtain ⟨fuel, rfl⟩ : ∃ n, fuel = n + 1 := ⟨fuel - 1, by omega⟩
    obtain ⟨hj, hitems⟩ := List.forall_mem_cons.mp h
    cases items with
    | nil =>
      have hlen : (l.chars level j).length ≤ fuel := by
        simp only [Layout.itemChars, List.length_append] at hf
        omega
      have htext : l.itemChars level [j] ++ blanks ++ ']' :: rest =
          l.line level ++ (l.chars level j ++ (blanks ++ ']' :: rest)) := by
        simp [Layout.itemChars]
      rw [htext, readItems_item hj hlen (closed_append hb (closed_cons (by simp) rest)), afterItem,
        skipSpace_append hb, skipSpace_cons rfl]
      rfl
    | cons j' items =>
      have hlen : (l.chars level j).length ≤ fuel ∧ (l.itemChars level (j' :: items)).length < fuel := by
        simp only [Layout.itemChars, List.length_append, List.length_singleton] at hf ⊢
        omega
      have htext : l.itemChars level (j :: j' :: items) ++ blanks ++ ']' :: rest = l.line level ++
          (l.chars level j ++ ',' :: (l.itemChars level (j' :: items) ++ blanks ++ ']' :: rest)) := by
        simp [Layout.itemChars]
      rw [htext, readItems_item hj hlen.1 (closed_cons (by simp) _), afterItem, skipSpace_cons rfl]
      simp only [ih hitems (List.cons_ne_nil _ _) hlen.2]
      rfl

/-- What is read after a member says whether there are more. -/
def afterMember (fuel depth : Nat) (m : String × Json) (tail : List Char) : Read Members :=
  match skipSpace tail with
  | [] => .error .incomplete
  | '\x7d' :: rest => .ok ([m], rest)
  | ',' :: rest => (readMembers fuel depth rest).map fun (members, rest) => (m :: members, rest)
  | _ => .error .malformed

theorem readMembers_member {j : Json} (h : ReadsBack l depth j) (key : String) {fuel level : Nat}
    (hf : (l.chars level j).length ≤ fuel) {tail : List Char} (ht : Closed tail) :
    readMembers (fuel + 1) depth
        (l.line level ++ (stringChars key ++ ':' :: (l.gap ++ (l.chars level j ++ tail)))) =
      afterMember fuel depth (key, j) tail := by
  obtain ⟨text, he, hr⟩ := exists_stringChars_eq key (':' :: (l.gap ++ (l.chars level j ++ tail)))
  rw [readMembers, skipSpace_append (fun _ => l.isSpace_of_mem_line), he, skipSpace_cons rfl]
  simp only [hr, skipSpace_cons (c := ':') rfl, readValue_append (fun _ => l.isSpace_of_mem_gap), h hf ht]
  rfl

theorem readMembers_memberChars {members : Members} (h : ∀ m ∈ members, ReadsBack l depth m.2) (hne : members ≠ [])
    (hb : ∀ c ∈ blanks, isSpace c) {fuel level : Nat} (hf : (l.memberChars level members).length < fuel)
    (rest : List Char) :
    readMembers fuel depth (l.memberChars level members ++ blanks ++ '\x7d' :: rest) = .ok (members, rest) := by
  induction members generalizing fuel with
  | nil => exact absurd rfl hne
  | cons m members ih =>
    obtain ⟨key, j⟩ := m
    obtain ⟨fuel, rfl⟩ : ∃ n, fuel = n + 1 := ⟨fuel - 1, by omega⟩
    obtain ⟨hj, hmembers⟩ := List.forall_mem_cons.mp h
    cases members with
    | nil =>
      have hlen : (l.chars level j).length ≤ fuel := by
        simp only [Layout.memberChars, List.length_append] at hf
        omega
      have htext : l.memberChars level [(key, j)] ++ blanks ++ '\x7d' :: rest = l.line level ++
          (stringChars key ++ ':' :: (l.gap ++ (l.chars level j ++ (blanks ++ '\x7d' :: rest)))) := by
        simp [Layout.memberChars]
      rw [htext, readMembers_member hj key hlen (closed_append hb (closed_cons (by simp) rest)), afterMember,
        skipSpace_append hb, skipSpace_cons rfl]
      rfl
    | cons m' members =>
      have hlen : (l.chars level j).length ≤ fuel ∧ (l.memberChars level (m' :: members)).length < fuel := by
        simp only [Layout.memberChars, List.length_append, List.length_singleton] at hf ⊢
        omega
      have htext : l.memberChars level ((key, j) :: m' :: members) ++ blanks ++ '\x7d' :: rest = l.line level ++
          (stringChars key ++ ':' :: (l.gap ++ (l.chars level j ++
            ',' :: (l.memberChars level (m' :: members) ++ blanks ++ '\x7d' :: rest)))) := by
        simp [Layout.memberChars]
      rw [htext, readMembers_member hj key hlen.1 (closed_cons (by simp) _), afterMember, skipSpace_cons rfl]
      simp only [ih hmembers (List.cons_ne_nil _ _) hlen.2]
      rfl

end Sequences

/-! ## Whole values -/

theorem readValue_array {tail s : List Char} {c : Char} (ht : skipSpace tail = c :: s) (hc : c ≠ ']')
    (fuel depth : Nat) : readValue (fuel + 1) (depth + 2) ('[' :: tail) =
      (readItems fuel (depth + 1) tail).map fun (items, rest) => (.array items, rest) := by
  rw [readValue, skipSpace_cons rfl]
  simp only
  split
  · next h => exact absurd (List.cons.inj (ht.symm.trans h)).1 hc
  · rw [readItems_skipSpace]

theorem readValue_object {tail s : List Char} {c : Char} (ht : skipSpace tail = c :: s) (hc : c ≠ '\x7d')
    (fuel depth : Nat) : readValue (fuel + 1) (depth + 2) ('\x7b' :: tail) =
      (readMembers fuel (depth + 1) tail).map fun (members, rest) => (.object members, rest) := by
  rw [readValue, skipSpace_cons rfl]
  simp only
  split
  · next h => exact absurd (List.cons.inj (ht.symm.trans h)).1 hc
  · rw [readMembers_skipSpace]

theorem exists_itemChars_eq (l : Layout) (level : Nat) (j : Json) (items : List Json) :
    ∃ more, l.itemChars level (j :: items) = l.line level ++ (l.chars level j ++ more) := by
  cases items with
  | nil => exact ⟨[], by simp [Layout.itemChars]⟩
  | cons j' items => exact ⟨',' :: l.itemChars level (j' :: items), by simp [Layout.itemChars]⟩

theorem exists_memberChars_eq (l : Layout) (level : Nat) (m : String × Json) (members : Members) :
    ∃ more, l.memberChars level (m :: members) = l.line level ++ '"' :: more := by
  cases members with
  | nil => exact ⟨_, by simp only [Layout.memberChars, stringChars, List.append_assoc]; rfl⟩
  | cons m' members => exact ⟨_, by simp only [Layout.memberChars, stringChars, List.append_assoc]; rfl⟩

/-- A value that has characters has fuel for its reader. -/
theorem readsBack_of_succ {l : Layout} {depth : Nat} {j : Json} (hj : ∀ level, l.chars level j ≠ [])
    (h : ∀ {fuel level : Nat} {rest : List Char}, (l.chars level j).length ≤ fuel + 1 → Closed rest →
      readValue (fuel + 1) depth (l.chars level j ++ rest) = .ok (j, rest)) : ReadsBack l depth j := by
  intro fuel level rest hf hr
  have hpos := List.length_pos_iff.mpr (hj level)
  obtain ⟨fuel, rfl⟩ : ∃ n, fuel = n + 1 := ⟨fuel - 1, by omega⟩
  exact h hf hr

theorem Readable.readsBack_of_succ {l : Layout} {depth : Nat} {j : Json} (hj : Readable depth j)
    (h : ∀ {fuel level : Nat} {rest : List Char}, (l.chars level j).length ≤ fuel + 1 → Closed rest →
      readValue (fuel + 1) depth (l.chars level j ++ rest) = .ok (j, rest)) : ReadsBack l depth j := by
  refine Json.readsBack_of_succ (fun level => ?_) h
  obtain ⟨c, cs, hc, -⟩ := exists_chars_eq_cons l hj level
  simp [hc]

/-- An object is read back if the values of its members are. -/
theorem readsBack_object {l : Layout} {depth : Nat} {members : Members}
    (h : ∀ m ∈ members, ReadsBack l (depth + 1) m.2) : ReadsBack l (depth + 2) (.object members) := by
  cases members with
  | nil =>
    refine readsBack_of_succ (fun level => by simp [Layout.chars]) fun _ _ => ?_
    simp [Layout.chars, readValue, skipSpace, isSpace]
  | cons m members =>
    refine readsBack_of_succ (fun level => by simp [Layout.chars]) fun {fuel level rest} hf hr => ?_
    have hlen : (l.memberChars (level + 1) (m :: members)).length < fuel := by
      simp only [Layout.chars, List.length_append, List.length_singleton] at hf
      omega
    have hblank : ∀ c ∈ l.line level, isSpace c := fun _ => l.isSpace_of_mem_line
    have hread := readMembers_memberChars h (List.cons_ne_nil _ _) hblank hlen rest
    obtain ⟨more, hm⟩ := exists_memberChars_eq l (level + 1) m members
    have hskip : skipSpace (l.memberChars (level + 1) (m :: members) ++ l.line level ++ '\x7d' :: rest) =
        '"' :: (more ++ (l.line level ++ '\x7d' :: rest)) := by
      simp only [hm, List.append_assoc, List.cons_append, skipSpace_append (fun _ => l.isSpace_of_mem_line),
        skipSpace_cons (c := '"') rfl]
    have htext : l.chars level (.object (m :: members)) ++ rest =
        '\x7b' :: (l.memberChars (level + 1) (m :: members) ++ l.line level ++ '\x7d' :: rest) := by
      simp [Layout.chars]
    rw [htext, readValue_object hskip (by decide), hread]
    rfl

/-- A reader gets every value that it takes back, from any layout. -/
theorem Readable.readsBack (l : Layout) {depth : Nat} {j : Json} (h : Readable depth j) : ReadsBack l depth j := by
  -- along the value, at every level: its fuel is at least the length of its text
  induction h with
  | null =>
    refine Readable.null.readsBack_of_succ fun _ _ => ?_
    simp [Layout.chars, readValue, skipSpace, isSpace, readWord]
  | bool b =>
    refine (Readable.bool b).readsBack_of_succ fun _ _ => ?_
    cases b <;> simp [Layout.chars, readValue, skipSpace, isSpace, readWord]
  | number h =>
    refine (Readable.number h).readsBack_of_succ fun _ hr => ?_
    rw [Layout.chars]
    exact readValue_number h _ _ hr
  | string s =>
    refine (Readable.string s).readsBack_of_succ fun _ _ => ?_
    rw [Layout.chars]
    exact readValue_string _ _ s _
  | @array depth items h ih =>
    refine (Readable.array h).readsBack_of_succ fun {fuel level rest} hf hr => ?_
    cases items with
    | nil => simp [Layout.chars, readValue, skipSpace, isSpace]
    | cons j items =>
      have hlen : (l.itemChars (level + 1) (j :: items)).length < fuel := by
        simp only [Layout.chars, List.length_append, List.length_singleton] at hf
        omega
      have hblank : ∀ c ∈ l.line level, isSpace c := fun _ => l.isSpace_of_mem_line
      have hread := readItems_itemChars ih (List.cons_ne_nil _ _) hblank hlen rest
      obtain ⟨c, cs, hc, hspace, hne⟩ := exists_chars_eq_cons l (h j List.mem_cons_self) (level + 1)
      obtain ⟨more, hm⟩ := exists_itemChars_eq l (level + 1) j items
      have hskip : skipSpace (l.itemChars (level + 1) (j :: items) ++ l.line level ++ ']' :: rest) =
          c :: (cs ++ (more ++ (l.line level ++ ']' :: rest))) := by
        simp only [hm, hc, List.append_assoc, List.cons_append, skipSpace_append (fun _ => l.isSpace_of_mem_line),
          skipSpace_cons hspace]
      have htext : l.chars level (.array (j :: items)) ++ rest =
          '[' :: (l.itemChars (level + 1) (j :: items) ++ l.line level ++ ']' :: rest) := by
        simp [Layout.chars]
      rw [htext, readValue_array hskip hne, hread]
      rfl
  | object _ ih => exact readsBack_object ih

/-- The text of a value that is read back from a layout, with blanks after it or none, is that of the value. -/
theorem ReadsBack.parse_chars {l : Layout} {j : Json} (h : ReadsBack l depthLimit j) (blanks : List Char)
    (hb : ∀ c ∈ blanks, isSpace c) : parse (String.ofList (l.chars 0 j ++ blanks)) = .ok j := by
  have hclosed : Closed blanks := by simpa using closed_append hb (s := []) (by simp [Closed])
  have hread : readValue (2 * (l.chars 0 j ++ blanks).length + 2) depthLimit (l.chars 0 j ++ blanks) = .ok (j, blanks) :=
    h (by simp only [List.length_append]; omega) hclosed
  have hskip : skipSpace blanks = [] := by simpa [skipSpace] using skipSpace_append hb []
  rw [parse, String.toList_ofList, hread]
  simp [hskip]

theorem ReadsBack.parse_compact {j : Json} (h : ReadsBack .compact depthLimit j) : parse j.compact = .ok j := by
  have hp := h.parse_chars [] (by simp)
  simpa [Layout.chars_compact, compact] using hp

theorem parse_compact {j : Json} (h : Readable depthLimit j) : parse j.compact = .ok j :=
  ReadsBack.parse_compact (h.readsBack .compact)

/-- A value that was written with line breaks, and one at the end, is read back. -/
theorem parse_pretty_append {j : Json} (h : Readable depthLimit j) : parse (j.pretty ++ "\n") = .ok j := by
  have hp := ReadsBack.parse_chars (h.readsBack .pretty) ['\n'] (by simp [isSpace])
  have htext : j.pretty ++ "\n" = String.ofList (Layout.pretty.chars 0 j ++ ['\n']) := by
    rw [Layout.chars_pretty, pretty, ← String.toList_inj]
    simp
  rw [htext, hp]

end NameAdvisor.Json
