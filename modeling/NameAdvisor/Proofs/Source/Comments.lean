import NameAdvisor.Proofs.Grammar.Order

/-!
# The comments of a declaration

The context of a declaration is made of the comments in the gap before it: between its predecessor in the construct
around and the declaration itself, or the export of it.  Where they stand in that gap is not looked at.  So a comment
of the context may stand on the line on which the predecessor ends.

## Main definitions

* `Declaration.around?`: what stands around the gap before a declaration.
* `Declaration.gathered`: the comments in the gap.
* `Declaration.Leads`: the comments that stand above what follows them.
-/

namespace NameAdvisor

namespace Declaration

/-! ## The gap before a declaration -/

/-- The number of line breaks before a character. -/
def rowOf (source : List Char) (at_ : Nat) : Nat :=
  (source.take at_).count '\n'

/-- Whether a node is passed over on the way back from a declaration. -/
def isPassed (t : Tree) : Bool :=
  t.kind == .comment || t.kind == .comma || t.kind == .decorator

/-- What is passed over before a place, the nearest first. -/
def passed (l : Level) : List Tree :=
  l.before.takeWhile isPassed

/-- The predecessor in the construct around: the nearest node that is not passed over. -/
def previous? (l : Level) : Option Tree :=
  (l.before.dropWhile isPassed).head?

/-- Where the gap starts: with the end of the predecessor, or with the construct around. -/
def gapStart (l : Level) : Nat :=
  ((previous? l).map (·.span.stop)).getD l.span.start

/-- What stands around the gap before the declaration at a place. -/
def around? (c : Cursor) : Option Level :=
  (category? c).bind (·.2.head?)

/-- The comments in the gap before the declaration at a place, the first one first. -/
def gathered (c : Cursor) : List Tree :=
  ((around? c).elim [] fun l => (passed l).filter (·.kind == .comment)).reverse

theorem commentsBefore_eq (ts : List Tree) : commentsBefore ts = (ts.takeWhile isPassed).filter (·.kind == .comment) := by
  induction ts with
  | nil => rfl
  | cons t ts ih => cases hk : t.kind <;> simp [commentsBefore, isPassed, hk, ih]

/-- The context of a declaration is the texts of the comments in the gap before it. -/
theorem sourceContext_of_classify? {source : List Char} {c : Cursor} {i : Identifier}
    (h : classify? source c = some i) :
    i.sourceContext = "\n".intercalate ((gathered c).map fun k => commentBody (textOf source k.span)) := by
  unfold classify? at h
  split at h
  · next kind above s hcategory hname =>
    obtain rfl := Option.some.inj h
    cases above with
    | nil => simp [leadingComments, gathered, around?, hcategory]
    | cons l above => simp [leadingComments, gathered, around?, hcategory, commentsBefore_eq, passed]
  · cases h

theorem suffix_aboveExport (above : List Level) : aboveExport above <:+ above := by
  cases above with
  | nil => exact List.suffix_refl _
  | cons l above =>
    rw [aboveExport]
    split
    · exact List.suffix_cons l above
    · exact List.suffix_refl _

theorem suffix_of_category? {c : Cursor} {kind : IdentifierKind} {around : List Level}
    (h : category? c = some (kind, around)) : around <:+ c.above := by
  have htail : aboveExport c.above.tail <:+ c.above := (suffix_aboveExport _).trans (List.tail_suffix _)
  unfold category? at h
  have hself := List.suffix_refl c.above
  have hexport := suffix_aboveExport c.above
  split at h <;> grind

/-- The levels around a place are those around the places above it. -/
theorem exists_hasPlace_of_suffix {t : Tree} {c : Cursor} (hc : t.HasPlace c) {l : Level} {above : List Level}
    (h : l :: above <:+ c.above) : ∃ focus, t.HasPlace ⟨focus, l :: above⟩ := by
  induction hc with
  | top => simp [Cursor.top] at h
  | @part k r s before after d levels hparent ih =>
    obtain heq | h := List.suffix_cons_iff.mp h
    · obtain ⟨rfl, rfl⟩ := List.cons.inj heq
      exact ⟨d, .part hparent⟩
    · exact ih h

/-- What stands around the gap before a declaration stands around some place of the tree. -/
theorem exists_hasPlace_of_around? {t : Tree} {c : Cursor} (hc : t.HasPlace c) {l : Level} (hl : around? c = some l) :
    ∃ focus above, t.HasPlace ⟨focus, l :: above⟩ := by
  obtain ⟨⟨kind, around⟩, hcategory, hhead⟩ := Option.bind_eq_some_iff.mp hl
  obtain ⟨above, rfl⟩ : ∃ above, around = l :: above := by
    cases around with
    | nil => cases hhead
    | cons first above => exact ⟨above, by rw [Option.some.inj hhead]⟩
  obtain ⟨focus, hplace⟩ := exists_hasPlace_of_suffix hc (suffix_of_category? hcategory)
  exact ⟨focus, above, hplace⟩

/-! ## Leading comments -/

/-- Whether a comment stands above what follows it: nothing in front of it that counts as a declaration, a statement or
a member ends on the line on which it starts.  What is passed over together with it, as are the decorators of the
declaration, is left out. -/
def Leads (source : List Char) (t : Tree) (counts : Tree → Prop) (l : Level) (k : Tree) : Prop :=
  ∀ d, t.HasPlace d → counts d.focus → d.focus.span.stop ≤ k.span.start →
    rowOf source d.focus.span.stop = rowOf source k.span.start →
    ∃ e ∈ passed l, e.span.start ≤ d.focus.span.start ∧ d.focus.span.stop ≤ e.span.stop

theorem rowOf_le_rowOf (source : List Char) {m n : Nat} (h : m ≤ n) : rowOf source m ≤ rowOf source n :=
  (List.take_sublist_take_left h).count_le '\n'

section

variable {source : List Char} {t : Tree} {focus : Tree} {l : Level} {above : List Level}
variable {counts : Tree → Prop}

/-- The parts of a construct in which a declaration stands: those before the gap, those in it, and the others. -/
structure Parted (l : Level) (focus : Tree) : Prop where
  start_le : l.span.start ≤ gapStart l
  before : ∀ e ∈ l.before.dropWhile isPassed, e.isInOrder = true ∧ e.span.stop ≤ gapStart l
  within : ∀ e ∈ passed l, e.isInOrder = true ∧ gapStart l ≤ e.span.start ∧ e.span.stop ≤ focus.span.start
  others : ∀ e ∈ focus :: l.after, e.isInOrder = true ∧ focus.span.start ≤ e.span.start
  le_stop : focus.span.start ≤ l.span.stop

theorem gapStart_between {stop : Nat} (h : Tree.partsInOrder l.span.start stop (l.before.dropWhile isPassed).reverse = true) :
    l.span.start ≤ gapStart l ∧ gapStart l ≤ stop ∧ ∀ e ∈ l.before.dropWhile isPassed, e.span.stop ≤ gapStart l := by
  unfold gapStart previous?
  cases hrest : l.before.dropWhile isPassed with
  | nil =>
    rw [hrest] at h
    exact ⟨Nat.le_refl _, Tree.le_of_partsInOrder h, by simp⟩
  | cons p rest =>
    rw [hrest, List.reverse_cons] at h
    obtain ⟨middle, hrest, hp⟩ := Tree.partsInOrder_append.mp h
    obtain ⟨hmiddle, horder, hstop⟩ := Tree.partsInOrder_cons.mp hp
    have hlast : middle ≤ p.span.stop := hmiddle.trans (Tree.start_le_stop horder)
    refine ⟨(Tree.le_of_partsInOrder hrest).trans hlast, Tree.le_of_partsInOrder hstop, fun e he => ?_⟩
    obtain rfl | he := List.mem_cons.mp he
    · exact Nat.le_refl _
    · exact (Tree.forall_mem_of_partsInOrder hrest e (List.mem_reverse.mpr he)).2.2.trans hlast

theorem parted_of_hasPlace (h : t.isInOrder = true) (hplace : t.HasPlace ⟨focus, l :: above⟩) : Parted l focus := by
  have horder : Tree.partsInOrder l.span.start l.span.stop (l.before.reverse ++ focus :: l.after) = true := by
    cases hplace with
    | part hparent => exact hparent.isInOrder h
  have hbefore : l.before.reverse = (l.before.dropWhile isPassed).reverse ++ (passed l).reverse := by
    rw [passed, ← List.reverse_append, List.takeWhile_append_dropWhile]
  obtain ⟨middle, hfront, hback⟩ := Tree.partsInOrder_append.mp horder
  rw [hbefore] at hfront
  obtain ⟨first, hrest, hpassed⟩ := Tree.partsInOrder_append.mp hfront
  obtain ⟨hfocus, hinner, hafter⟩ := Tree.partsInOrder_cons.mp hback
  obtain ⟨hstart, hfirst, hall⟩ := gapStart_between hrest
  refine ⟨hstart, fun e he => ⟨?_, hall e he⟩, fun e he => ?_, fun e he => ?_, ?_⟩
  · exact (Tree.forall_mem_of_partsInOrder hrest e (List.mem_reverse.mpr he)).1
  · obtain ⟨heorder, hfrom, hto⟩ := Tree.forall_mem_of_partsInOrder hpassed e (List.mem_reverse.mpr he)
    exact ⟨heorder, hfirst.trans hfrom, hto.trans hfocus⟩
  · obtain rfl | he := List.mem_cons.mp he
    · exact ⟨hinner, Nat.le_refl _⟩
    · obtain ⟨heorder, hfrom, -⟩ := Tree.forall_mem_of_partsInOrder hafter e he
      exact ⟨heorder, (Tree.start_le_stop hinner).trans hfrom⟩
  · exact (Tree.start_le_stop hinner).trans (Tree.le_of_partsInOrder hafter)

/-- What ends in front of a comment of the gap ends before the gap, or belongs to what is passed over. -/
theorem le_gapStart_or_of_le (h : t.isInOrder = true) (hplace : t.HasPlace ⟨focus, l :: above⟩) {k : Tree}
    (hk : k ∈ passed l) (hne : k.span.start < k.span.stop) {d : Cursor} (hd : t.HasPlace d)
    (hlong : d.focus.span.start < d.focus.span.stop) (hle : d.focus.span.stop ≤ k.span.start) :
    d.focus.span.stop ≤ gapStart l ∨
      ∃ e ∈ passed l, e.span.start ≤ d.focus.span.start ∧ d.focus.span.stop ≤ e.span.stop := by
  obtain ⟨hstart, hbefore, hwithin, hothers, hstop⟩ := parted_of_hasPlace h hplace
  obtain ⟨-, hgap, hfocus⟩ := hwithin k hk
  have hparent : t.HasPlace ⟨.node l.kind l.role l.span (l.before.reverse ++ focus :: l.after), above⟩ := by
    cases hplace with
    | part hparent => exact hparent
  have hcompare := hparent.compare h hd
  simp only [Tree.span_node] at hcompare
  obtain hinside | ⟨-, haround⟩ | hfront | hbehind := hcompare
  · rw [Tree.places] at hinside
    obtain rfl | hinside := List.mem_cons.mp hinside
    · -- the construct around does not end in the gap
      simp only [Tree.span_node] at hle
      omega
    obtain ⟨e, he, level, hplaces⟩ := Tree.exists_of_mem_placesAmong hinside
    have hparts : e ∈ passed l ∨ e ∈ l.before.dropWhile isPassed ∨ e ∈ focus :: l.after := by
      rw [← List.takeWhile_append_dropWhile (p := isPassed) (l := l.before)] at he
      simp only [List.mem_append, List.mem_reverse] at he
      exact or_assoc.mp he
    obtain he | he | he := hparts
    · exact .inr ⟨e, he, (Tree.inside_of_mem_places (hwithin e he).1 hplaces).2⟩
    · obtain ⟨horder, hend⟩ := hbefore e he
      exact .inl ((Tree.inside_of_mem_places horder hplaces).2.2.trans hend)
    · obtain ⟨horder, hfrom⟩ := hothers e he
      have := (Tree.inside_of_mem_places horder hplaces).2.1
      omega
  · omega
  · exact .inl (hfront.trans hstart)
  · omega

/-- A comment of the gap leads exactly if all that ends before the gap ends on an earlier line. -/
theorem leads_iff (h : t.isInOrder = true) (hcounts : ∀ u, counts u → u.span.start < u.span.stop)
    (hplace : t.HasPlace ⟨focus, l :: above⟩) {k : Tree} (hk : k ∈ passed l) (hne : k.span.start < k.span.stop) :
    Leads source t counts l k ↔ ∀ d, t.HasPlace d → counts d.focus → d.focus.span.stop ≤ gapStart l →
      rowOf source d.focus.span.stop < rowOf source k.span.start := by
  have hparted := parted_of_hasPlace h hplace
  have hgap := (hparted.within k hk).2.1
  constructor
  · intro hleads d hd hcounted hend
    have hrow := rowOf_le_rowOf source (hend.trans hgap)
    refine lt_of_le_of_ne hrow fun heq => ?_
    obtain ⟨e, he, hfrom, -⟩ := hleads d hd hcounted (hend.trans hgap) heq
    have hafter := (hparted.within e he).2.1
    have hlong := hcounts d.focus hcounted
    omega
  · intro hearlier d hd hcounted hle heq
    obtain hend | hinside := le_gapStart_or_of_le h hplace hk hne hd (hcounts d.focus hcounted) hle
    · exact absurd heq (hearlier d hd hcounted hend).ne
    · exact hinside

theorem exists_hasPlace_of_mem_before (hplace : t.HasPlace ⟨focus, l :: above⟩) {e : Tree} (he : e ∈ l.before) :
    ∃ d, t.HasPlace d ∧ d.focus = e := by
  obtain ⟨front, back, hbefore⟩ := List.append_of_mem he
  cases hplace with
  | @part kind role span before after c above hparent =>
    obtain rfl : before = front ++ e :: back := hbefore
    rw [List.reverse_append, List.reverse_cons, List.append_assoc, List.append_assoc] at hparent
    exact ⟨_, .part hparent, rfl⟩

/-- Behind a predecessor that counts, a comment of the gap leads exactly if it starts on a later line than the one on
which the predecessor ends. -/
theorem leads_iff_of_previous (h : t.isInOrder = true) (hcounts : ∀ u, counts u → u.span.start < u.span.stop)
    (hplace : t.HasPlace ⟨focus, l :: above⟩) {k : Tree} (hk : k ∈ passed l) (hne : k.span.start < k.span.stop)
    {s : Tree} (hs : previous? l = some s) (hcounted : counts s) :
    Leads source t counts l k ↔ rowOf source s.span.stop < rowOf source k.span.start := by
  have hgap : gapStart l = s.span.stop := by simp [gapStart, hs]
  have hmem : s ∈ l.before := (List.dropWhile_sublist _).subset (List.mem_of_head? hs)
  obtain ⟨d, hd, rfl⟩ := exists_hasPlace_of_mem_before hplace hmem
  rw [leads_iff h hcounts hplace hk hne, hgap]
  constructor
  · intro hearlier
    exact hearlier d hd hcounted (Nat.le_refl _)
  · intro hrow e _ _ hend
    exact lt_of_le_of_lt (rowOf_le_rowOf source hend) hrow

end

/-! ## The context of a declaration -/

theorem exists_of_mem_inTree {source : List Char} {t : Tree} {i : Identifier} (h : i ∈ inTree source t) :
    ∃ c, t.HasPlace c ∧ classify? source c = some i := by
  rw [inTree, Cursor.walk_eq_places] at h
  obtain ⟨c, hc, hi⟩ := List.mem_filterMap.mp h
  exact ⟨c, Tree.mem_places_iff.mp hc, hi⟩

theorem exists_of_mem_gathered {c : Cursor} {k : Tree} (h : k ∈ gathered c) :
    ∃ l, around? c = some l ∧ k ∈ passed l ∧ k.kind = .comment := by
  rw [gathered, List.mem_reverse] at h
  cases hl : around? c with
  | none => simp [hl] at h
  | some l =>
    rw [hl, Option.elim_some] at h
    obtain ⟨hk, hkind⟩ := List.mem_filter.mp h
    exact ⟨l, rfl, hk, by simpa using hkind⟩

/-- The context of a declaration that is found in a source is the comments of the gap before it, whichever lines they
stand on.  Whatever counts as a declaration, a statement or a member, a comment of the context leads exactly if all of
these that end before the gap end on earlier lines than the one on which it starts: behind one of them, exactly if that
one does. -/
theorem context_of_mem_inTree (language : SourceLanguage) (source : List Char) {counts : Tree → Prop}
    (hcounts : ∀ u, counts u → u.span.start < u.span.stop) {i : Identifier}
    (hi : i ∈ inTree source (Tree.ofSource language source)) :
    ∃ c, (Tree.ofSource language source).HasPlace c ∧ classify? source c = some i ∧
      i.sourceContext = "\n".intercalate ((gathered c).map fun k => commentBody (textOf source k.span)) ∧
      ∀ k ∈ gathered c, ∃ l, around? c = some l ∧ k ∈ passed l ∧ k.kind = .comment ∧
        (Leads source (Tree.ofSource language source) counts l k ↔
          ∀ d, (Tree.ofSource language source).HasPlace d → counts d.focus → d.focus.span.stop ≤ gapStart l →
            rowOf source d.focus.span.stop < rowOf source k.span.start) ∧
        ∀ s, previous? l = some s → counts s →
          (Leads source (Tree.ofSource language source) counts l k ↔
            rowOf source s.span.stop < rowOf source k.span.start) := by
  obtain ⟨horder, hfilled⟩ := Tree.ofSource_inOrder language source
  generalize Tree.ofSource language source = t at *
  obtain ⟨c, hc, hclassify⟩ := exists_of_mem_inTree hi
  refine ⟨c, hc, hclassify, sourceContext_of_classify? hclassify, fun k hk => ?_⟩
  obtain ⟨l, hl, hpassed, hkind⟩ := exists_of_mem_gathered hk
  obtain ⟨focus, above, hplace⟩ := exists_hasPlace_of_around? hc hl
  have hne : k.span.start < k.span.stop := by
    obtain ⟨d, hd, rfl⟩ := exists_hasPlace_of_mem_before hplace ((List.takeWhile_sublist _).subset hpassed)
    exact Tree.start_lt_stop_of_isFilled (hd.isFilled hfilled) hkind
  exact ⟨l, hl, hpassed, hkind, leads_iff horder hcounts hplace hpassed hne,
    fun s hs hcounted => leads_iff_of_previous horder hcounts hplace hpassed hne hs hcounted⟩

/-- A comment on the line of a declaration and one on the next line. -/
theorem context_of_mem_inTree_of_two :
    let source := "const a = 1; // first\n// second\nfunction b() \x7b\x7d\n".toList
    let i : Identifier := ⟨"b", .function, "first\nsecond", some 3⟩
    let counts : Tree → Prop := fun u => u.children ≠ [] ∧ u.span.start < u.span.stop
    (∀ u, counts u → u.span.start < u.span.stop) ∧ i ∈ inTree source (Tree.ofSource .tsx source) ∧
      ∃ c, (Tree.ofSource .tsx source).HasPlace c ∧ classify? source c = some i ∧
        i.sourceContext = "\n".intercalate ((gathered c).map fun k => commentBody (textOf source k.span)) ∧
        ∀ k ∈ gathered c, ∃ l, around? c = some l ∧ k ∈ passed l ∧
          ∀ s, previous? l = some s → counts s →
            (Leads source (Tree.ofSource .tsx source) counts l k ↔
              rowOf source s.span.stop < rowOf source k.span.start) := by
  intro source i counts
  have hcounts : ∀ u, counts u → u.span.start < u.span.stop := fun u hu => hu.2
  have hi : i ∈ inTree source (Tree.ofSource .tsx source) := by decide +kernel
  obtain ⟨c, hc, hclassify, hcontext, hall⟩ := context_of_mem_inTree .tsx source hcounts hi
  refine ⟨hcounts, hi, c, hc, hclassify, hcontext, fun k hk => ?_⟩
  obtain ⟨l, hl, hpassed, -, -, hprevious⟩ := hall k hk
  exact ⟨l, hl, hpassed, hprevious⟩

/-- The comment behind a declaration becomes the context of the next one. -/
theorem context_from_line_before :
    (inTree "const a = 1; // first\nconst b = 2;\n".toList
        (Tree.ofSource .typeScript "const a = 1; // first\nconst b = 2;\n".toList)).map
      (fun i => (i.name, i.sourceContext)) = [("a", ""), ("b", "first")] := by
  decide +kernel

end Declaration

end NameAdvisor
