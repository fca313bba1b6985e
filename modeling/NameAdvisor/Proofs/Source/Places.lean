import NameAdvisor.Proofs.Source.Declarations

/-!
# How the places of a tree stand to each other

In a tree whose parts stand in order, a construct stands before another one, after it, inside it or around it.

## Main results

* `Tree.partsInOrder_append`: parts in order are put together of parts in order.
* `Tree.HasPlace.compare`: where a place stands, as seen from another one.
-/

namespace NameAdvisor.Tree

@[simp] theorem span_node (k : NodeKind) (r : Option Role) (s : Span) (cs : List Tree) : (node k r s cs).span = s := rfl

/-! ## Parts in order -/

theorem partsInOrder_append {start stop : Nat} {xs ys : List Tree} :
    partsInOrder start stop (xs ++ ys) = true ↔
      ∃ middle, partsInOrder start middle xs = true ∧ partsInOrder middle stop ys = true := by
  induction xs generalizing start with
  | nil =>
    simp only [List.nil_append, partsInOrder, decide_eq_true_eq]
    constructor
    · intro h
      exact ⟨start, Nat.le_refl _, h⟩
    · rintro ⟨middle, hle, h⟩
      cases ys with
      | nil => exact decide_eq_true (hle.trans (le_of_partsInOrder h))
      | cons c cs =>
        obtain ⟨hc, hcs⟩ := partsInOrder_cons.mp h
        exact partsInOrder_cons.mpr ⟨hle.trans hc, hcs⟩
  | cons c cs ih =>
    simp only [List.cons_append, partsInOrder_cons, ih]
    grind

theorem forall_mem_of_partsInOrder {start stop : Nat} {cs : List Tree} (h : partsInOrder start stop cs = true) :
    ∀ c ∈ cs, c.isInOrder = true ∧ start ≤ c.span.start ∧ c.span.stop ≤ stop := by
  intro c hc
  obtain ⟨before, after, rfl⟩ := List.append_of_mem hc
  obtain ⟨middle, hbefore, hrest⟩ := partsInOrder_append.mp h
  obtain ⟨hstart, horder, hafter⟩ := partsInOrder_cons.mp hrest
  exact ⟨horder, (le_of_partsInOrder hbefore).trans hstart, le_of_partsInOrder hafter⟩

/-- Parts in order end with the last of them. -/
theorem partsInOrder_getLast {start stop : Nat} {cs : List Tree} (h : partsInOrder start stop cs = true) (hne : cs ≠ []) :
    partsInOrder start (cs.getLast hne).span.stop cs = true ∧ (cs.getLast hne).span.stop ≤ stop := by
  obtain ⟨init, last, rfl⟩ : ∃ init last, cs = init ++ [last] := ⟨_, _, (List.dropLast_append_getLast hne).symm⟩
  obtain ⟨middle, hinit, hlast⟩ := partsInOrder_append.mp h
  obtain ⟨hmiddle, horder, hle⟩ := partsInOrder_cons.mp hlast
  rw [List.getLast_append_singleton]
  exact ⟨partsInOrder_append.mpr ⟨middle, hinit, partsInOrder_cons.mpr ⟨hmiddle, horder, decide_eq_true (Nat.le_refl _)⟩⟩,
    le_of_partsInOrder hle⟩

/-! ## Places inside a construct -/

theorem exists_of_mem_placesAmong {k : NodeKind} {r : Option Role} {s : Span} {above : List Level}
    {before cs : List Tree} {d : Cursor} (h : d ∈ placesAmong k r s above before cs) :
    ∃ c ∈ cs, ∃ l, d ∈ c.places (l :: above) := by
  induction cs generalizing before with
  | nil => cases h
  | cons c cs ih =>
    rw [placesAmong] at h
    obtain h | h := List.mem_append.mp h
    · exact ⟨c, List.mem_cons_self, _, h⟩
    · obtain ⟨e, he, hplaces⟩ := ih h
      exact ⟨e, List.mem_cons_of_mem c he, hplaces⟩

/-- A place in the parts of a construct is in a part before `c`, in `c`, or in a part after it. -/
theorem mem_places_or_of_mem_placesAmong {k : NodeKind} {r : Option Role} {s : Span} {above : List Level}
    {passed before after : List Tree} {c : Tree} {d : Cursor}
    (h : d ∈ placesAmong k r s above passed (before ++ c :: after)) :
    (∃ e ∈ before, ∃ l, d ∈ e.places (l :: above)) ∨
      d ∈ c.places (⟨k, r, s, before.reverse ++ passed, after⟩ :: above) ∨
      ∃ e ∈ after, ∃ l, d ∈ e.places (l :: above) := by
  induction before generalizing passed with
  | nil =>
    rw [List.nil_append, placesAmong] at h
    obtain h | h := List.mem_append.mp h
    · exact .inr (.inl h)
    · exact .inr (.inr (exists_of_mem_placesAmong h))
  | cons e before ih =>
    rw [List.cons_append, placesAmong] at h
    obtain h | h := List.mem_append.mp h
    · exact .inl ⟨e, List.mem_cons_self, _, h⟩
    · obtain ⟨f, hf, hplaces⟩ | hrest := ih h
      · exact .inl ⟨f, List.mem_cons_of_mem e hf, hplaces⟩
      · simpa using .inr hrest

theorem HasPlace.isInOrder {t : Tree} (h : t.isInOrder = true) {d : Cursor} (hd : t.HasPlace d) :
    d.focus.isInOrder = true :=
  (inside_of_mem_places h (mem_places_iff.mpr hd)).1

/-- As seen from a construct, a place is inside it, around it, before it or after it. -/
theorem HasPlace.compare {t : Tree} (h : t.isInOrder = true) {c d : Cursor} (hc : t.HasPlace c) (hd : t.HasPlace d) :
    d ∈ c.focus.places c.above ∨
      d.focus.span.start ≤ c.focus.span.start ∧ c.focus.span.stop ≤ d.focus.span.stop ∨
      d.focus.span.stop ≤ c.focus.span.start ∨ c.focus.span.stop ≤ d.focus.span.start := by
  induction hc with
  | top => exact .inl (mem_places_iff.mpr hd)
  | @part k r s before after c above hparent ih =>
    have horder : partsInOrder s.start s.stop (before.reverse ++ c :: after) = true := hparent.isInOrder h
    obtain ⟨-, hstart, hstop⟩ := forall_mem_of_partsInOrder horder c (by simp)
    simp only [span_node] at ih
    obtain hinside | ⟨hfrom, hto⟩ | hbefore | hafter := ih
    · rw [places] at hinside
      obtain rfl | hinside := List.mem_cons.mp hinside
      · exact .inr (.inl ⟨hstart, hstop⟩)
      obtain ⟨middle, hfront, hback⟩ := partsInOrder_append.mp horder
      obtain ⟨hmiddle, -, hrest⟩ := partsInOrder_cons.mp hback
      obtain ⟨e, he, l, hplaces⟩ | hplaces | ⟨e, he, l, hplaces⟩ := mem_places_or_of_mem_placesAmong hinside
      · obtain ⟨heorder, -, hestop⟩ := forall_mem_of_partsInOrder hfront e he
        exact .inr (.inr (.inl ((inside_of_mem_places heorder hplaces).2.2.trans (hestop.trans hmiddle))))
      · simp only [List.reverse_reverse, List.append_nil] at hplaces
        exact .inl hplaces
      · obtain ⟨heorder, hestart, -⟩ := forall_mem_of_partsInOrder hrest e he
        exact .inr (.inr (.inr (hestart.trans (inside_of_mem_places heorder hplaces).2.1)))
    · exact .inr (.inl ⟨hfrom.trans hstart, hstop.trans hto⟩)
    · exact .inr (.inr (.inl (hbefore.trans hstart)))
    · exact .inr (.inr (.inr (hstop.trans hafter)))

/-! ## Nodes for a stretch of the source -/

mutual

/-- No comment in the construct is empty. -/
def isFilled : Tree → Bool
  | node k _ s cs => (k != .comment || decide (s.start < s.stop)) && areFilled cs

def areFilled : List Tree → Bool
  | [] => true
  | c :: cs => c.isFilled && areFilled cs

end

theorem areFilled_iff {cs : List Tree} : areFilled cs = true ↔ ∀ c ∈ cs, c.isFilled = true := by
  induction cs with
  | nil => simp [areFilled]
  | cons c cs ih => simp [areFilled, ih]

theorem isFilled_node {k : NodeKind} {r : Option Role} {s : Span} {cs : List Tree} :
    (node k r s cs).isFilled = true ↔ (k = .comment → s.start < s.stop) ∧ ∀ c ∈ cs, c.isFilled = true := by
  rw [isFilled, Bool.and_eq_true, areFilled_iff]
  simp [imp_iff_not_or]

theorem start_lt_stop_of_isFilled {t : Tree} (h : t.isFilled = true) (hkind : t.kind = .comment) :
    t.span.start < t.span.stop := by
  obtain ⟨k, r, s, cs⟩ := t
  exact (isFilled_node.mp h).1 hkind

theorem HasPlace.isFilled {t : Tree} (h : t.isFilled = true) {d : Cursor} (hd : t.HasPlace d) :
    d.focus.isFilled = true := by
  induction hd with
  | top => exact h
  | part hparent ih => exact (isFilled_node.mp ih).2 _ (by simp)

/-- Nodes that stand between two places of a source, one after the other, and hold no empty comment. -/
structure Fits (start stop : Nat) (ts : List Tree) : Prop where
  inOrder : partsInOrder start stop ts = true
  filled : ∀ t ∈ ts, t.isFilled = true

namespace Fits

variable {start middle stop : Nat} {ts us : List Tree}

theorem le (h : Fits start stop ts) : start ≤ stop :=
  le_of_partsInOrder h.inOrder

theorem nil (h : start ≤ stop) : Fits start stop [] :=
  ⟨decide_eq_true h, by simp⟩

theorem append_iff : Fits start stop (ts ++ us) ↔ ∃ middle, Fits start middle ts ∧ Fits middle stop us := by
  constructor
  · rintro ⟨horder, hfilled⟩
    obtain ⟨middle, hts, hus⟩ := partsInOrder_append.mp horder
    obtain ⟨hleft, hright⟩ := List.forall_mem_append.mp hfilled
    exact ⟨middle, ⟨hts, hleft⟩, ⟨hus, hright⟩⟩
  · rintro ⟨middle, hts, hus⟩
    exact ⟨partsInOrder_append.mpr ⟨middle, hts.inOrder, hus.inOrder⟩,
      List.forall_mem_append.mpr ⟨hts.filled, hus.filled⟩⟩

theorem append (h : Fits start middle ts) (h' : Fits middle stop us) : Fits start stop (ts ++ us) :=
  append_iff.mpr ⟨middle, h, h'⟩

theorem mono {first last : Nat} (h : Fits start stop ts) (hfirst : first ≤ start) (hlast : stop ≤ last) :
    Fits first last ts := by
  simpa using ((nil hfirst).append h).append (nil hlast)

theorem cons_iff {t : Tree} :
    Fits start stop (t :: ts) ↔
      start ≤ t.span.start ∧ t.isInOrder = true ∧ t.isFilled = true ∧ Fits t.span.stop stop ts := by
  constructor
  · rintro ⟨horder, hfilled⟩
    obtain ⟨hstart, hfirst, hrest⟩ := partsInOrder_cons.mp horder
    obtain ⟨hfirstFilled, hrestFilled⟩ := List.forall_mem_cons.mp hfilled
    exact ⟨hstart, hfirst, hfirstFilled, hrest, hrestFilled⟩
  · rintro ⟨hstart, hfirst, hfirstFilled, hrest, hrestFilled⟩
    exact ⟨partsInOrder_cons.mpr ⟨hstart, hfirst, hrest⟩, List.forall_mem_cons.mpr ⟨hfirstFilled, hrestFilled⟩⟩

theorem leaf {k : NodeKind} {s : Span} (hstart : start ≤ s.start) (hstop : s.stop ≤ stop) (hle : s.start ≤ s.stop)
    (hfilled : k = .comment → s.start < s.stop) : Fits start stop [Tree.leaf k s] :=
  cons_iff.mpr ⟨hstart, decide_eq_true hle, isFilled_node.mpr ⟨hfilled, by simp⟩, nil hstop⟩

/-- A construct stands where its parts do; the comments in front of it stay in front of it. -/
theorem wrap {k : NodeKind} (hk : k ≠ .comment) (h : Fits start stop ts) : Fits start stop (Tree.wrap k ts) := by
  induction ts generalizing start with
  | nil => exact h
  | cons first rest ih =>
    obtain ⟨hstart, hfirst, hfilled, hrest⟩ := cons_iff.mp h
    rw [Tree.wrap]
    split
    · exact cons_iff.mpr ⟨hstart, hfirst, hfilled, ih hrest⟩
    · have hne := List.cons_ne_nil first rest
      have hstop : (spanOf first rest).stop = ((first :: rest).getLast hne).span.stop := by
        simp [spanOf, List.getLast?_eq_some_getLast hne]
      have hall : partsInOrder first.span.start stop (first :: rest) = true :=
        partsInOrder_cons.mpr ⟨Nat.le_refl _, hfirst, hrest.inOrder⟩
      obtain ⟨hparts, hle⟩ := partsInOrder_getLast hall hne
      rw [← hstop] at hparts hle
      have hnode : (node k none (spanOf first rest) (first :: rest)).isFilled = true :=
        isFilled_node.mpr ⟨fun hc => absurd hc hk, List.forall_mem_cons.mpr ⟨hfilled, hrest.filled⟩⟩
      exact cons_iff.mpr ⟨hstart, hparts, hnode, nil hle⟩

theorem assign {r : Role} (h : Fits start stop ts) : Fits start stop (Tree.assign r ts) := by
  induction ts generalizing start with
  | nil => exact h
  | cons c cs ih =>
    obtain ⟨hstart, horder, hfilled, hrest⟩ := cons_iff.mp h
    have hcs := ih hrest
    rw [Tree.assign] at hcs ⊢
    rw [List.map_cons]
    split
    · exact cons_iff.mpr ⟨hstart, horder, hfilled, hcs⟩
    · obtain ⟨kind, role, span, parts⟩ := c
      exact cons_iff.mpr ⟨hstart, horder, isFilled_node.mpr (isFilled_node.mp hfilled), hcs⟩

end Fits

end NameAdvisor.Tree
