import NameAdvisor.Proofs.Source.ImportClause

/-!
# The imports of a source

A source of import declarations is read declaration by declaration: what is recognised in one of them ends in it and
gives its module, and nothing is recognised across two of them.  A declaration counts exactly if, from the word `import`
on, what it imports stands on one line; blanks and line breaks around that do not matter.

## Main definitions

* `Imports.modules`: the modules in a text, without a bound on the number of steps.
* `ImportDeclaration`: a declaration that imports a module by its name.
* `ImportDeclaration.isSeen`: the declarations that are recognised.
-/

namespace NameAdvisor

namespace Imports

open Text

/-! ## From one import to the next -/

/-- The module of the import that a text starts with, and what follows it. -/
def importAt? (s : List Char) : Option (List Char × List Char) :=
  (after? "import".toList s).bind moduleAfter?

/-- The modules in a text. -/
def modules (s : List Char) : List (List Char) :=
  modulesFrom s.length s

theorem suffix_of_untilQuote? {s : List Char} {found : List Char × List Char} (h : untilQuote? s = some found) :
    found.2 <:+ s := by
  induction s generalizing found with
  | nil => cases h
  | cons c s ih =>
    rw [untilQuote?] at h
    split at h
    · obtain rfl := Option.some.inj h
      exact List.suffix_cons c s
    split at h
    · cases h
    · obtain ⟨found', hfound, rfl⟩ := Option.map_eq_some_iff.mp h
      exact (ih hfound).trans (List.suffix_cons c s)

theorem suffix_of_fromClause? {s : List Char} {found : List Char × List Char} (h : fromClause? s = some found) :
    found.2 <:+ s := by
  obtain ⟨gap, gap', t, -, -, rfl, ht⟩ := fromClause?_eq_some_iff.mp h
  have hquoted : found.2 <:+ t := by
    unfold quoted? at ht
    split at ht
    · next q c u =>
      split at ht
      · obtain ⟨found', hfound, rfl⟩ := Option.map_eq_some_iff.mp ht
        exact (suffix_of_untilQuote? hfound).trans (List.suffix_append [q, c] u)
      · cases ht
    · cases ht
  rw [← List.append_assoc, ← List.append_assoc]
  exact hquoted.trans (List.suffix_append _ t)

theorem suffix_of_inLine? {s : List Char} {found : List Char × List Char} (h : inLine? s = some found) :
    found.2 <:+ s := by
  induction s with
  | nil => exact suffix_of_fromClause? h
  | cons c s ih =>
    rw [inLine?_cons] at h
    split at h
    · next hfrom =>
      obtain rfl := Option.some.inj h
      exact suffix_of_fromClause? hfrom
    · split at h
      · cases h
      · exact (ih h).trans (List.suffix_cons c s)

theorem suffix_of_moduleAfter? {s : List Char} {found : List Char × List Char} (h : moduleAfter? s = some found) :
    found.2 <:+ s := by
  induction s with
  | nil => cases h
  | cons c s ih =>
    rw [moduleAfter?] at h
    split at h
    · split at h
      · next hlater =>
        obtain rfl := Option.some.inj h
        exact (ih hlater).trans (List.suffix_cons c s)
      · exact (suffix_of_inLine? h).trans (List.suffix_cons c s)
    · cases h

theorem length_lt_of_importAt? {s : List Char} {found : List Char × List Char} (h : importAt? s = some found) :
    found.2.length < s.length := by
  obtain ⟨t, hafter, hmodule⟩ := Option.bind_eq_some_iff.mp h
  obtain rfl := after?_eq_some_iff.mp hafter
  have hle := (suffix_of_moduleAfter? hmodule).length_le
  have hword : 0 < "import".toList.length := by decide
  rw [List.length_append]
  omega

/-- More steps than there are characters change nothing. -/
theorem modulesFrom_eq {n m : Nat} {s : List Char} (hn : s.length ≤ n) (hm : s.length ≤ m) :
    modulesFrom n s = modulesFrom m s := by
  induction n generalizing m s with
  | zero =>
    obtain rfl : s = [] := List.length_eq_zero_iff.mp (Nat.le_zero.mp hn)
    cases m <;> rfl
  | succ n ih =>
    cases s with
    | nil => cases m <;> rfl
    | cons c s =>
      obtain ⟨m, rfl⟩ : ∃ k, m = k + 1 := ⟨m - 1, by simp at hm; omega⟩
      simp only [List.length_cons, Nat.add_le_add_iff_right] at hn hm
      rw [modulesFrom, modulesFrom, ih hn hm]
      split
      · next text rest hat =>
        have hlt : rest.length < s.length + 1 := length_lt_of_importAt? hat
        have hrest : rest.length ≤ m := by omega
        rw [ih (by omega) hrest]
      · rfl

@[simp] theorem modules_nil : modules [] = [] := rfl

theorem modules_cons (c : Char) (s : List Char) :
    modules (c :: s) = match importAt? (c :: s) with
      | some (text, rest) => text :: modules rest
      | none => modules s := by
  change (match importAt? (c :: s) with
    | some (text, rest) => text :: modulesFrom s.length rest
    | none => modulesFrom s.length s) = _
  split
  · next text rest hat =>
    have hlt := length_lt_of_importAt? hat
    rw [List.length_cons] at hlt
    rw [modulesFrom_eq (Nat.le_of_lt_succ hlt) (Nat.le_refl _)]
    rfl
  · rfl

/-- Where no import starts, a text is passed. -/
theorem modules_append {x y : List Char} (h : ∀ x', x' ≠ [] → x' <:+ x → importAt? (x' ++ y) = none) :
    modules (x ++ y) = modules y := by
  induction x with
  | nil => rfl
  | cons c x ih =>
    have hc := h (c :: x) (List.cons_ne_nil c x) (List.suffix_refl _)
    rw [List.cons_append] at hc ⊢
    rw [modules_cons, hc]
    exact ih fun x' hne hsuffix => h x' hne (hsuffix.trans (List.suffix_cons c x))

/-- The first place of a text from which on a module is found decides, if all of them find the same one. -/
theorem modules_append_of_found {x y text z : List Char} {seen : List Char → Bool} (hnil : seen [] = false)
    (h : ∀ x', x' ≠ [] → x' <:+ x → importAt? (x' ++ y) = if seen x' then some (text, z) else none) :
    modules (x ++ y) = if x.tails.any seen then text :: modules z else modules y := by
  induction x with
  | nil => simp [hnil]
  | cons c x ih =>
    have hc := h (c :: x) (List.cons_ne_nil c x) (List.suffix_refl _)
    have hx := ih fun x' hne hsuffix => h x' hne (hsuffix.trans (List.suffix_cons c x))
    rw [List.cons_append] at hc ⊢
    rw [modules_cons, hc, hx, List.tails_cons, List.any_cons]
    cases seen (c :: x) <;> rfl

theorem importAt?_of_head {c : Char} (h : c ≠ 'i') (s : List Char) : importAt? (c :: s) = none := by
  simp [importAt?, after?, Ne.symm h]

theorem modules_append_of_notMem {x : List Char} (hx : 'i' ∉ x) (y : List Char) : modules (x ++ y) = modules y := by
  refine modules_append fun x' hne hsuffix => ?_
  obtain ⟨c, x', rfl⟩ := List.exists_cons_of_ne_nil hne
  exact importAt?_of_head (fun hc => hx (hsuffix.mem (by simp [hc]))) _

theorem notMem_of_isBlank {x : List Char} (hx : ∀ c ∈ x, isBlank c = true) : 'i' ∉ x :=
  fun hi => absurd (hx 'i' hi) (by decide)

theorem ne_of_isQuote {c q : Char} (hc : isQuote c = false) (hq : isQuote q = true) : c ≠ q := by
  rintro rfl
  rw [hc] at hq
  cases hq

/-- No import starts in a module: its end would be no beginning of one. -/
theorem Closes.modules_append {x z : List Char} (h : Closes z) (hx : ∀ c ∈ x, isQuote c = false) :
    modules (x ++ z) = modules z := by
  refine Imports.modules_append fun x' _ hsuffix => ?_
  rw [importAt?, Option.bind_eq_none_iff]
  intro t ht
  obtain ⟨q, s, hz, hq⟩ := h.exists_cons
  have hletters : ∀ c ∈ "import".toList, isQuote c = false :=
    fun c hc => (plain_words c (List.mem_append_left _ hc)).2
  have hend : ∃ c s, z = c :: s ∧ ¬ isQuote c = false := ⟨q, s, hz, by simp [hq]⟩
  obtain ⟨u, rfl, rfl⟩ := exists_of_append_eq hletters (.inr hend) (after?_eq_some_iff.mp ht)
  exact h.moduleAfter?_eq_none fun c hc => hx c (hsuffix.mem (by simp [hc]))

end Imports

/-! ## Declarations -/

/-- `import`, a clause with the white space around it, `from`, a module in quotes, a semicolon, and the white space up
to the next declaration. -/
structure ImportDeclaration where
  clause : List Char
  /-- The white space after `from`. -/
  space : List Char
  quote : Char
  module : List Char
  /-- The white space after the semicolon. -/
  ending : List Char
  deriving Repr

namespace ImportDeclaration

open Text Imports

def chars (d : ImportDeclaration) : List Char :=
  "import".toList ++ (d.clause ++ ("from".toList ++
    (d.space ++ d.quote :: (d.module ++ d.quote :: ';' :: d.ending))))

/-- Whether the declaration is recognised: from some word `import` of it on, the clause is one line between blanks. -/
def isSeen (d : ImportDeclaration) : Bool :=
  ("import".toList ++ d.clause).tails.any fun s => (after? "import".toList s).any onOneLine

/-- A declaration as it is written: white space where it has to be, a line break after the semicolon, and a module of
one line without quotes. -/
structure Proper (d : ImportDeclaration) : Prop where
  head : d.clause.head?.any isBlank = true
  last : d.clause.getLast?.any isBlank = true
  clause_ne_nil : trimChars d.clause ≠ []
  not_misleads : ¬ Misleads d.clause
  space : IsGap d.space
  quote : isQuote d.quote = true
  module_ne_nil : d.module ≠ []
  module : ∀ c ∈ d.module, isQuote c = false ∧ c ≠ '\n'
  ending : ∀ c ∈ d.ending, isBlank c = true
  lineBreak : '\n' ∈ d.ending

variable {d : ImportDeclaration}

theorem Proper.names (h : d.Proper) {rest : List Char} (hrest : ∀ c ∈ rest.head?, c = 'i') :
    Names ("from".toList ++ (d.space ++ d.quote :: (d.module ++ d.quote :: ';' :: (d.ending ++ rest)))) d.module
      (';' :: (d.ending ++ rest)) where
  exists_eq := ⟨d.space, d.quote, h.space, h.quote, rfl⟩
  ne_nil := h.module_ne_nil
  plain := h.module
  closes q hq := ⟨q, d.ending, rest, hq, h.ending, h.lineBreak, hrest, rfl⟩

/-- In the clause, an import is found where the word `import` stands and one line follows. -/
theorem Proper.importAt?_append (h : d.Proper) {tail z x : List Char} (hnames : Names tail d.module z) (hne : x ≠ [])
    (hx : x <:+ "import".toList ++ d.clause) :
    importAt? (x ++ tail) = if (after? "import".toList x).any onOneLine then some (d.module, z) else none := by
  cases hafter : after? "import".toList x with
  | some v =>
    obtain rfl := after?_eq_some_iff.mp hafter
    have hv : v <:+ d.clause := by
      refine List.suffix_of_suffix_length_le ((List.suffix_append _ v).trans hx) (List.suffix_append _ d.clause) ?_
      simpa using hx.length_le
    have hat : importAt? ("import".toList ++ v ++ tail) = moduleAfter? (v ++ tail) := by
      rw [importAt?, after?_eq_some_iff.mpr (List.append_assoc _ v tail)]
      rfl
    rw [hat, hnames.moduleAfter?_append h.not_misleads h.last hv]
    rfl
  | none =>
    -- the clause ends with a blank, so the word would be a part of it
    have hlast : ∃ c ∈ x, ¬ c ∈ "import".toList := by
      obtain ⟨p, hp⟩ := hx
      obtain ⟨c, hc, hblank⟩ := (Option.any_eq_true _ _).mp h.last
      have hclause : d.clause ≠ [] := by
        intro hnil
        rw [hnil] at hc
        cases hc
      have hcx := congrArg List.getLast? hp
      rw [List.getLast?_append_of_ne_nil _ hne, List.getLast?_append_of_ne_nil _ hclause, Option.mem_def.mp hc] at hcx
      refine ⟨c, List.mem_of_mem_getLast? hcx, fun hword => ?_⟩
      rw [(plain_words c (List.mem_append_left _ hword)).1] at hblank
      cases hblank
    have hnone : after? "import".toList (x ++ tail) = none := by
      rw [Option.eq_none_iff_forall_ne_some]
      intro t ht
      obtain ⟨v, hv, -⟩ := exists_of_append_eq (fun c hc => hc) (.inl hlast) (after?_eq_some_iff.mp ht)
      rw [after?_eq_some_iff.mpr hv] at hafter
      cases hafter
    rw [importAt?, hnone]
    rfl

theorem Proper.modules_ending (h : d.Proper) (rest : List Char) : modules (';' :: (d.ending ++ rest)) = modules rest := by
  have hnone : 'i' ∉ ';' :: d.ending := by simp [notMem_of_isBlank h.ending]
  simpa using modules_append_of_notMem hnone rest

/-- Behind the clause, no import is found before the next declaration. -/
theorem Proper.modules_tail (h : d.Proper) {rest : List Char} (hrest : ∀ c ∈ rest.head?, c = 'i') :
    modules ("from".toList ++ (d.space ++ d.quote :: (d.module ++ d.quote :: ';' :: (d.ending ++ rest)))) =
      modules rest := by
  have hquote : 'i' ∉ [d.quote] := by simpa using ne_of_isQuote (by decide) h.quote
  have hclose : Closes (d.quote :: ';' :: (d.ending ++ rest)) := (h.names hrest).closes _ h.quote
  calc modules ("from".toList ++ (d.space ++ d.quote :: (d.module ++ d.quote :: ';' :: (d.ending ++ rest))))
    _ = modules (d.space ++ d.quote :: (d.module ++ d.quote :: ';' :: (d.ending ++ rest))) :=
        modules_append_of_notMem (by decide) _
    _ = modules (d.quote :: (d.module ++ d.quote :: ';' :: (d.ending ++ rest))) :=
        modules_append_of_notMem (notMem_of_isBlank h.space.2) _
    _ = modules (d.module ++ d.quote :: ';' :: (d.ending ++ rest)) := modules_append_of_notMem hquote _
    _ = modules (d.quote :: ';' :: (d.ending ++ rest)) := hclose.modules_append fun c hc => (h.module c hc).1
    _ = modules (';' :: (d.ending ++ rest)) := modules_append_of_notMem hquote _
    _ = modules rest := h.modules_ending rest

/-- What is recognised in a declaration ends in it. -/
theorem Proper.modules_chars (h : d.Proper) {rest : List Char} (hrest : ∀ c ∈ rest.head?, c = 'i') :
    modules (d.chars ++ rest) = if d.isSeen then d.module :: modules rest else modules rest := by
  have hnames := h.names hrest
  have hparts : d.chars ++ rest = ("import".toList ++ d.clause) ++
      ("from".toList ++ (d.space ++ d.quote :: (d.module ++ d.quote :: ';' :: (d.ending ++ rest)))) := by
    unfold chars
    -- the words themselves are not to be taken apart
    generalize "import".toList = first, "from".toList = second
    simp
  rw [hparts, modules_append_of_found rfl fun x' hne hsuffix => h.importAt?_append hnames hne hsuffix,
    h.modules_ending, h.modules_tail hrest]
  rfl

theorem Proper.isSeen_of_oneLine (h : d.Proper) (hline : '\n' ∉ trimChars d.clause) : d.isSeen = true := by
  have hlong : 1 < d.clause.length := by
    by_contra hshort
    refine h.clause_ne_nil (trimChars_of_all_blank fun c hc => ?_)
    have hhead := h.head
    match hd : d.clause with
    | [] => simp [hd] at hc
    | [e] => simp_all
    | e :: f :: clause => simp [hd] at hshort
  have hone : onOneLine d.clause = true := by
    simp [onOneLine, h.head, h.last, hlong, hline]
  rw [isSeen, List.any_eq_true]
  refine ⟨"import".toList ++ d.clause, (List.mem_tails _ _).mpr (List.suffix_refl _), ?_⟩
  rwa [after?_eq_some_iff.mpr rfl]

/-- A clause over several lines that holds no second word `import` is not recognised. -/
theorem isSeen_eq_false (hbreak : '\n' ∈ trimChars d.clause) (hword : ¬ "import".toList <:+: d.clause) :
    d.isSeen = false := by
  rw [← Bool.not_eq_true, isSeen, List.any_eq_true]
  rintro ⟨x, hx, hseen⟩
  obtain ⟨v, hv, hone⟩ := (Option.any_eq_true _ _).mp hseen
  obtain rfl := after?_eq_some_iff.mp hv
  obtain ⟨p, hp⟩ := (List.mem_tails _ _).mp hx
  cases p with
  | nil =>
    obtain rfl : v = d.clause := List.append_cancel_left hp
    simp [onOneLine, hbreak] at hone
  | cons c p =>
    -- only the first letter of the word begins it
    have hrest : p ++ ("import".toList ++ v) = "mport".toList ++ d.clause := (List.cons.inj hp).2
    obtain ⟨w, hw, hv⟩ | ⟨w, hw, hv⟩ := List.append_eq_append_iff.mp hrest
    · cases w with
      | nil => exact hword ⟨[], v, by simpa using hv⟩
      | cons e w =>
        obtain rfl : 'i' = e := (List.cons.inj hv).1
        have hmem : 'i' ∈ "mport".toList := by simp only [hw, List.mem_append, List.mem_cons, true_or, or_true]
        exact absurd hmem (by decide)
    · exact hword ⟨w, v, by rw [hv, List.append_assoc]⟩

theorem modules_flatMap {ds : List ImportDeclaration} (h : ∀ d ∈ ds, d.Proper) :
    modules (ds.flatMap chars) = (ds.filter isSeen).map ImportDeclaration.module := by
  induction ds with
  | nil => rfl
  | cons d ds ih =>
    obtain ⟨hd, hds⟩ := List.forall_mem_cons.mp h
    have hrest : ∀ c ∈ (ds.flatMap chars).head?, c = 'i' := by
      intro c hc
      cases ds with
      | nil => cases hc
      | cons e ds => exact (Option.some.inj hc).symm
    rw [List.flatMap_cons, hd.modules_chars hrest, ih hds]
    cases hseen : d.isSeen <;> simp [hseen]

/-- Of import declarations one after the other, the modules of those that are recognised are the imports, in order: all
of them exactly if each one is recognised.  One whose clause is a single line is; one with a line break within its
clause is not, unless the clause holds the word `import` itself. -/
theorem ofSource_declarations (ds : List ImportDeclaration) (h : ∀ d ∈ ds, d.Proper) :
    ofSource (ds.flatMap chars) = (ds.filter isSeen).map (fun d => String.ofList d.module) ∧
      (ofSource (ds.flatMap chars) = ds.map (fun d => String.ofList d.module) ↔ ∀ d ∈ ds, d.isSeen = true) ∧
      ∀ d ∈ ds, ('\n' ∉ trimChars d.clause → d.isSeen = true) ∧
        ('\n' ∈ trimChars d.clause → ¬ "import".toList <:+: d.clause → d.isSeen = false) := by
  have hall : ofSource (ds.flatMap chars) = (ds.filter isSeen).map fun d => String.ofList d.module := by
    change (modules (ds.flatMap chars)).map String.ofList = _
    rw [modules_flatMap h, List.map_map]
    rfl
  refine ⟨hall, ?_, fun d hd => ⟨(h d hd).isSeen_of_oneLine, isSeen_eq_false⟩⟩
  rw [hall, ← List.filter_eq_self]
  constructor
  · intro heq
    have hlength := congrArg List.length heq
    rw [List.length_map, List.length_map] at hlength
    exact List.filter_sublist.eq_of_length hlength
  · intro heq
    rw [heq]

/-- A clause without quotes misleads nowhere. -/
theorem not_misleads {clause : List Char} (h : ∀ c ∈ clause, isQuote c = false) : ¬ Misleads clause := by
  rintro ⟨gap, gap', q, -, -, hq, hpart⟩
  rw [h q (hpart.subset (by simp))] at hq
  cases hq

/-- A default import, named imports over several lines, and a namespace import on a line of its own: the second one is
passed over. -/
theorem ofSource_declarations_of_three :
    ∃ ds : List ImportDeclaration, (∀ d ∈ ds, d.Proper) ∧
      ds.flatMap chars =
        "import React from 'react';\nimport \x7b\n  a,\n  b\n\x7d from \"./utils\";\n\nimport\n* as fs\nfrom 'fs';\n".toList ∧
      ofSource (ds.flatMap chars) = ["react", "fs"] := by
  let ds : List ImportDeclaration :=
    [⟨" React ".toList, [' '], '\'', "react".toList, ['\n']⟩,
      ⟨" \x7b\n  a,\n  b\n\x7d ".toList, [' '], '"', "./utils".toList, ['\n', '\n']⟩,
      ⟨"\n* as fs\n".toList, [' '], '\'', "fs".toList, ['\n']⟩]
  have hproper : ∀ d ∈ ds, d.Proper := by
    intro d hd
    have hcheck : ds.all (fun d => d.clause.head?.any isBlank && d.clause.getLast?.any isBlank &&
        !(trimChars d.clause).isEmpty && d.clause.all (!isQuote ·) && !d.space.isEmpty && d.space.all isBlank &&
        isQuote d.quote && !d.module.isEmpty && d.module.all (fun c => !isQuote c && c != '\n') &&
        d.ending.all isBlank && d.ending.contains '\n') = true := by
      decide +kernel
    have hd := List.all_eq_true.mp hcheck d hd
    simp only [Bool.and_eq_true, Bool.not_eq_true', List.isEmpty_eq_false_iff, List.all_eq_true, bne_iff_ne,
      List.contains_iff_mem, and_assoc] at hd
    obtain ⟨hhead, hlast, hne, hquotes, hspace, hgap, hquote, hmodule, hplain, hending, hbreak⟩ := hd
    exact ⟨hhead, hlast, hne, not_misleads hquotes, ⟨hspace, hgap⟩, hquote, hmodule, hplain, hending, hbreak⟩
  refine ⟨ds, hproper, by decide +kernel, ?_⟩
  rw [(ofSource_declarations ds hproper).1]
  decide +kernel

/-- Named imports over several lines are not recognised: the recognition of a clause stops at its first line break. -/
theorem module_missed_over_lines : ofSource "import \x7b\n  a,\n  b\n\x7d from 'x';\n".toList = [] := by
  decide +kernel

end ImportDeclaration

end NameAdvisor
