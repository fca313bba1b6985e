import NameAdvisor.Grammar.Rule
import NameAdvisor.Proofs.Grammar.Token

/-!
# What a rule adds to a tree

A rule adds nodes that stand one after the other, between the place where it starts and the place up to which it
reads, and it leaves the reader inside the source.  Rules that are made of such rules are such rules.

## Main definitions

* `Reader.Stands`: the places that a reader gets to.
* `Rule.Fine`: nodes that follow one another, and a reader that stands behind them.
* `Rule.Orderly`: the rules that read such nodes from everywhere.
-/

namespace NameAdvisor

/-- A place between two tokens in a source of `n` characters, not behind `b`: the comments before the next token stand
between it and the one before. -/
structure Reader.Stands (n b : Nat) (r : Reader) : Prop where
  comments : Tree.Fits r.last r.start r.comments
  rest_le : r.rest ≠ [] → r.last + r.rest.length ≤ n
  text_le : r.text ≠ [] → r.start + r.text.length ≤ n
  token : r.token ≠ .stop → r.text ≠ []
  size_le : r.size ≤ r.text.length
  start_le : r.start ≤ b
  le : n ≤ b

namespace Reader

variable {n b : Nat} {r : Reader}

theorem stands_moveTo (r : Reader) {at_ : Nat} {s : List Char} (hb : n ≤ b) (hat : at_ ≤ b)
    (hs : s ≠ [] → at_ + s.length ≤ n) : (r.moveTo at_ s).Stands n b := by
  have hfits := Gap.fits_read at_ s
  have hstop := Gap.stop_read at_ s
  have hle := hfits.le
  have hstart : (Gap.read at_ s).stop ≤ b ∧
      ((Gap.read at_ s).rest ≠ [] → (Gap.read at_ s).stop + (Gap.read at_ s).rest.length ≤ n) := by
    by_cases hnil : s = []
    · subst hnil
      have hrest : (Gap.read at_ []).rest.length = 0 := by grind
      exact ⟨by grind, fun hne => absurd (List.length_eq_zero_iff.mp hrest) hne⟩
    · have := hs hnil
      exact ⟨by omega, fun _ => by omega⟩
  exact ⟨hfits, hs, hstart.2, Token.ne_nil_of_read, Token.size_read_le _, hstart.1, hb⟩

theorem Stands.withBound (h : r.Stands n b) {c : Nat} (hstart : r.start ≤ c) (hc : n ≤ c) : r.Stands n c :=
  ⟨h.comments, h.rest_le, h.text_le, h.token, h.size_le, hstart, hc⟩

/-- As many characters as the text has do not lead beyond the source. -/
theorem Stands.start_add_le (h : r.Stands n b) {m : Nat} (hm : m ≤ r.text.length) : r.start + m ≤ b := by
  by_cases hnil : r.text = []
  · have := h.start_le
    simp only [hnil, List.length_nil, Nat.le_zero] at hm
    omega
  · have := h.text_le hnil
    have := h.le
    omega

end Reader

namespace Rule

variable {n b : Nat}

/-- The nodes that were read, if any, stand between `start` and the place that the reader has got to. -/
def Fine (n b start : Nat) (found : Option (List Tree × Reader)) : Prop :=
  ∀ ts r, found = some (ts, r) → Tree.Fits start r.last ts ∧ r.Stands n b

/-- A rule that reads nodes in their order, wherever it starts. -/
class Orderly (n b : Nat) (p : Rule) : Prop where
  fine {r : Reader} (h : r.Stands n b) : Fine n b r.last (p r)

theorem fine_none {start : Nat} : Fine n b start none := by
  intro ts r h
  cases h

theorem fine_some {start : Nat} {ts : List Tree} {r : Reader} (hts : Tree.Fits start r.last ts) (hr : r.Stands n b) :
    Fine n b start (some (ts, r)) := by
  intro ts' r' h
  cases h
  exact ⟨hts, hr⟩

theorem fine_of (p : Rule) [Orderly n b p] {r : Reader} (h : r.Stands n b) : Fine n b r.last (p r) :=
  Orderly.fine h

/-! ## Tokens -/

theorem fine_next {k : NodeKind} (hk : k ≠ .comment) {r : Reader} (hcomments : Tree.Fits r.last r.start r.comments)
    (htext : r.text ≠ [] → r.start + r.text.length ≤ n) (hto : r.token ≠ .stop → r.start + r.size ≤ b)
    (hb : n ≤ b) : Fine n b r.last (next k r) := by
  unfold next
  split
  · exact fine_none
  · next htoken =>
    have hleaf : Tree.Fits r.start (r.start + r.size) [Tree.leaf k ⟨r.start, r.start + r.size⟩] :=
      .leaf (Nat.le_refl _) (Nat.le_refl _) (Nat.le_add_right ..) fun hc => absurd hc hk
    refine fine_some (hcomments.append hleaf) (Reader.stands_moveTo r hb (hto htoken) fun hdrop => ?_)
    have hlength := List.length_pos_iff.mpr hdrop
    rw [List.length_drop] at hlength ⊢
    have := htext (by rintro hnil; simp [hnil] at hlength)
    omega

theorem Orderly.next {k : NodeKind} (hk : k ≠ .comment) : Orderly n b (next k) where
  fine h := fine_next hk h.comments h.text_le (fun _ => h.start_add_le h.size_le) h.le

instance : Orderly n b (next .token) := .next (by decide)
instance : Orderly n b (next .identifier) := .next (by decide)
instance : Orderly n b (next .propertyName) := .next (by decide)
instance : Orderly n b (next .comma) := .next (by decide)

/-- The first characters of a token, up to the bound. -/
theorem fine_firstOf {m : Nat} {r : Reader} (h : r.Stands n b) (hm : r.start + m ≤ b) :
    Fine n b r.last (firstOf m r) :=
  @fine_next n b .token (by decide) { r with size := m, token := .mark (String.ofList (r.text.take m)) } h.comments
    h.text_le (fun _ => hm) h.le

/-! ## Rules made of rules -/

section

variable {p q : Rule} {start : Nat} {r : Reader}

instance : Orderly n b done where
  fine h := fine_some (.nil (Nat.le_refl _)) h

instance : Orderly n b fail where
  fine _ := fine_none

theorem fine_andThen (hp : Fine n b start (p r)) [Orderly n b q] : Fine n b start (andThen p q r) := by
  unfold andThen
  split
  · exact fine_none
  · next ts r' hts =>
    obtain ⟨hfits, hr'⟩ := hp ts r' hts
    split
    · exact fine_none
    · next us r'' hus =>
      obtain ⟨hfits', hr''⟩ := fine_of q hr' us r'' hus
      exact fine_some (hfits.append hfits') hr''

instance [Orderly n b p] [Orderly n b q] : Orderly n b (andThen p q) where
  fine h := fine_andThen (fine_of p h)

instance : Orderly n b (all []) :=
  inferInstanceAs (Orderly n b done)

theorem fine_all {ps : List Rule} (hp : Fine n b start (p r)) [hps : Orderly n b (all ps)] :
    Fine n b start (all (p :: ps) r) := by
  cases ps with
  | nil => exact hp
  | cons q ps => exact fine_andThen hp

instance {ps : List Rule} [Orderly n b p] [Orderly n b (all ps)] : Orderly n b (all (p :: ps)) where
  fine h := fine_all (fine_of p h)

theorem fine_orElse (hp : Fine n b start (p r)) (hq : Fine n b start (q r)) : Fine n b start (orElse p q r) := by
  unfold orElse
  split
  · next found hfound => exact hfound ▸ hp
  · exact hq

instance [Orderly n b p] [Orderly n b q] : Orderly n b (orElse p q) where
  fine h := fine_orElse (fine_of p h) (fine_of q h)

instance [Orderly n b p] : Orderly n b (optionally p) :=
  inferInstanceAs (Orderly n b (orElse p done))

instance {test : Reader → Bool} [Orderly n b p] [Orderly n b q] : Orderly n b (given test p q) where
  fine h := by
    unfold given
    split
    · exact fine_of p h
    · exact fine_of q h

instance {test : Reader → Bool} [Orderly n b p] : Orderly n b (only test p) :=
  inferInstanceAs (Orderly n b (given test p fail))

/-- What has been read so far, and one more round after the other. -/
theorem fine_repeatedly [Orderly n b p] (fuel : Nat) {found : List (List Tree)}
    (hfound : Tree.Fits start r.last found.reverse.flatten) (hr : r.Stands n b) :
    Fine n b start (repeatedly p fuel found r) := by
  induction fuel generalizing found r with
  | zero => exact fine_some hfound hr
  | succ fuel ih =>
    unfold repeatedly
    split
    · exact fine_some hfound hr
    · next ts r' hts =>
      obtain ⟨hfits, hr'⟩ := fine_of p hr ts r' hts
      split
      · exact fine_some hfound hr
      · exact ih (by simpa using hfound.append hfits) hr'

instance [Orderly n b p] : Orderly n b (many p) where
  fine h := fine_repeatedly _ (.nil (Nat.le_refl _)) h

theorem fine_node {k : NodeKind} (hk : k ≠ .comment) (hp : Fine n b start (p r)) : Fine n b start (node k p r) := by
  intro ts r' h
  obtain ⟨⟨us, r''⟩, hus, heq⟩ := Option.map_eq_some_iff.mp h
  cases heq
  obtain ⟨hfits, hr'⟩ := hp us r' hus
  exact ⟨hfits.wrap hk, hr'⟩

theorem Orderly.node {k : NodeKind} (hk : k ≠ .comment) [Orderly n b p] : Orderly n b (node k p) where
  fine h := fine_node hk (fine_of p h)

instance [Orderly n b p] : Orderly n b (Rule.node .construct p) :=
  .node (by decide)

instance {role : Role} [Orderly n b p] : Orderly n b (part role p) where
  fine h := by
    intro ts r' hts
    obtain ⟨⟨us, r''⟩, hus, heq⟩ := Option.map_eq_some_iff.mp hts
    cases heq
    obtain ⟨hfits, hr'⟩ := fine_of p h us r' hus
    exact ⟨hfits.assign, hr'⟩

end

/-! ## Single marks and raw text -/

instance {test : Reader → Bool} : Orderly n b (token test) :=
  inferInstanceAs (Orderly n b (only test (next .token)))

instance {m : String} : Orderly n b (mark m) :=
  inferInstanceAs (Orderly n b (token _))

instance {ms : List String} : Orderly n b (markOf ms) :=
  inferInstanceAs (Orderly n b (token _))

instance {w : String} : Orderly n b (word w) :=
  inferInstanceAs (Orderly n b (token _))

instance {ws : List String} : Orderly n b (wordOf ws) :=
  inferInstanceAs (Orderly n b (token _))

instance : Orderly n b name :=
  inferInstanceAs (Orderly n b (only _ (next .identifier)))

instance : Orderly n b quoted :=
  inferInstanceAs (Orderly n b (token _))

instance : Orderly n b comma :=
  inferInstanceAs (Orderly n b (only _ (next .comma)))

instance {item : Rule} [Orderly n b item] : Orderly n b (separated item) :=
  inferInstanceAs (Orderly n b (optionally (all [item, many (all [comma, item]), optionally comma])))

theorem ne_nil_of_startsWith {c : Char} {r : Reader} (h : r.startsWith c = true) : r.text ≠ [] := by
  intro hnil
  simp [Reader.startsWith, hnil] at h

instance {c : Char} : Orderly n b (single c) where
  fine {r} h := by
    unfold single only given
    split
    · next hc =>
      exact fine_firstOf h (h.start_add_le (List.length_pos_iff.mpr (ne_nil_of_startsWith hc)))
    · exact fine_none

/-- Raw text is read as far as its length says, which the text has. -/
theorem Orderly.raw {size : List Char → Nat} (hsize : ∀ s, size s ≤ s.length) : Orderly n b (raw size) where
  fine {r} h := by
    unfold Rule.raw
    split
    · exact fine_none
    · next m hm =>
      have hlong : m + 1 ≤ r.rest.length := by
        have := hsize r.rest
        omega
      have hto := h.rest_le (by rintro hnil; simp [hnil] at hlong)
      have := h.le
      have hleaf : Tree.Fits r.last (r.last + (m + 1)) [Tree.leaf .token ⟨r.last, r.last + (m + 1)⟩] :=
        .leaf (Nat.le_refl _) (Nat.le_refl _) (Nat.le_add_right ..) nofun
      refine fine_some hleaf (Reader.stands_moveTo r h.le (by omega) fun _ => ?_)
      rw [List.length_drop]
      omega

instance : Orderly n b (raw templateSize) := .raw templateSize_le
instance : Orderly n b (raw elementTextSize) := .raw elementTextSize_le

/-! ## The end of a statement -/

/-- The semicolon stands behind the comments of its line, and before the others. -/
theorem fits_trailing {r : Reader} (h : r.Stands n b) {stop : Nat}
    (hstop : stop = (r.trailing.getLast?.map (·.stop)).getD r.last) :
    Tree.Fits r.last stop (r.trailing.map (Tree.leaf .comment)) ∧
      Tree.Fits stop r.start (r.leading.map (Tree.leaf .comment)) := by
  have hall := h.comments
  rw [Reader.comments, List.map_append] at hall
  obtain ⟨middle, htrailing, hleading⟩ := Tree.Fits.append_iff.mp hall
  by_cases hnil : r.trailing = []
  · simp only [hnil, List.getLast?_nil, Option.map_none, Option.getD_none, List.map_nil] at hstop htrailing ⊢
    subst hstop
    exact ⟨.nil (Nat.le_refl _), hleading.mono htrailing.le (Nat.le_refl _)⟩
  · have hne : r.trailing.map (Tree.leaf .comment) ≠ [] := by simpa using hnil
    obtain ⟨hparts, hle⟩ := Tree.partsInOrder_getLast htrailing.inOrder hne
    have hlast : ((r.trailing.map (Tree.leaf .comment)).getLast hne).span.stop = stop := by
      simp [hstop, List.getLast?_eq_some_getLast hnil, Tree.leaf]
    rw [hlast] at hparts hle
    exact ⟨⟨hparts, htrailing.filled⟩, hleading.mono hle (Nat.le_refl _)⟩

instance : Orderly n b omittedSemicolon where
  fine {r} h := by
    unfold omittedSemicolon
    extract_lets stop
    obtain ⟨htrailing, hleading⟩ := fits_trailing h rfl
    have hleaf : Tree.Fits stop stop [Tree.leaf .token ⟨stop, stop⟩] :=
      .leaf (Nat.le_refl _) (Nat.le_refl _) (Nat.le_refl _) nofun
    have hle : r.last ≤ stop := htrailing.le
    refine fine_some (htrailing.append hleaf) ⟨hleading, fun hdrop => ?_, h.text_le, h.token, h.size_le, h.start_le, h.le⟩
    have hlength := List.length_pos_iff.mpr hdrop
    rw [List.length_drop] at hlength ⊢
    have := h.rest_le (by rintro hnil; simp [hnil] at hlength)
    change stop + (r.rest.length - (stop - r.last)) ≤ n
    omega

instance : Orderly n b optionalSemicolon :=
  inferInstanceAs (Orderly n b (given _ omittedSemicolon done))

instance : Orderly n b semicolon :=
  inferInstanceAs (Orderly n b (orElse (mark ";") optionalSemicolon))

/-! ## Rules that end inside the source -/

/-- A rule after which the reader stands inside the source, even if it stood beyond it before. -/
class Closing (n b : Nat) (p : Rule) : Prop where
  start_le {r : Reader} (h : r.Stands n b) {ts : List Tree} {r' : Reader} (hr' : p r = some (ts, r')) : r'.start ≤ n

instance {c : Char} : Closing n b (single c) where
  start_le {r} h {ts r'} hr' := by
    have hc : r.startsWith c = true := by
      by_contra hc
      simp [single, only, given, hc, fail] at hr'
    have htext := h.text_le (ne_nil_of_startsWith hc)
    have hinside : r.Stands n n := h.withBound (by omega) (Nat.le_refl n)
    exact (fine_of (single c) hinside ts r' hr').2.start_le

section

variable {p q : Rule}

instance [Orderly n b p] [Closing n b q] : Closing n b (andThen p q) where
  start_le {r} h {ts r'} hr' := by
    unfold andThen at hr'
    split at hr'
    · cases hr'
    · next us r₁ hus =>
      obtain ⟨-, h₁⟩ := fine_of p h us r₁ hus
      split at hr'
      · cases hr'
      · next vs r₂ hvs =>
        cases hr'
        exact Closing.start_le h₁ hvs

instance [Closing n b p] : Closing n b (all [p]) :=
  inferInstanceAs (Closing n b p)

instance {ps : List Rule} [Orderly n b p] [Closing n b (all (q :: ps))] : Closing n b (all (p :: q :: ps)) :=
  inferInstanceAs (Closing n b (andThen p (all (q :: ps))))

instance [Closing n b p] [Closing n b q] : Closing n b (orElse p q) where
  start_le {r} h {ts r'} hr' := by
    unfold orElse at hr'
    split at hr'
    · next found hfound =>
      obtain rfl := Option.some.inj hr'
      exact Closing.start_le h hfound
    · exact Closing.start_le h hr'

instance {k : NodeKind} [Closing n b p] : Closing n b (node k p) where
  start_le {r} h {ts r'} hr' := by
    obtain ⟨⟨us, r''⟩, hus, heq⟩ := Option.map_eq_some_iff.mp hr'
    cases heq
    exact Closing.start_le h hus

end

end Rule

end NameAdvisor
