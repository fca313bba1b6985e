import NameAdvisor.Grammar.Token
import NameAdvisor.Proofs.Source.Places

/-!
# What a token takes of a text

No token is longer than the text that it is read from.  A gap is as long as what it leaves out of the text, and its
comments stand in it one after the other.
-/

namespace NameAdvisor

/-! ## The length of a token -/

mutual

theorem wordSize_le (s : List Char) : wordSize s ≤ s.length := by
  unfold wordSize
  split
  · exact Nat.le_refl _
  · next s =>
    have := bracedSize_le s
    grind
  · next s _ =>
    have := wordSize_le s
    grind
  · next c s _ _ =>
    have := wordSize_le s
    grind
termination_by s.length

theorem bracedSize_le (s : List Char) : wordSize.bracedSize s ≤ s.length := by
  unfold wordSize.bracedSize
  split
  · exact Nat.le_refl _
  · next c s =>
    have := wordSize_le s
    have := bracedSize_le s
    grind
termination_by s.length

end

theorem quotedSize_le (q : Char) (s : List Char) : quotedSize q s ≤ s.length := by
  fun_induction quotedSize q s <;> grind

theorem runSize_le (p : Char → Bool) (s : List Char) : runSize p s ≤ s.length := by
  fun_induction runSize p s <;> grind

theorem exponentSize_le (s : List Char) : exponentSize s ≤ s.length := by
  unfold exponentSize
  split
  · next e sign d t =>
    have hdigits := runSize_le (fun c => c.isDigit || c == '_') (d :: t)
    have hsigned := runSize_le (fun c => c.isDigit || c == '_') t
    grind
  · grind
  · exact Nat.zero_le _

theorem decimalSize_le (s : List Char) : numberSize.decimalSize s ≤ s.length := by
  unfold numberSize.decimalSize
  extract_lets digits whole point exponent suffix
  have hwhole : whole ≤ s.length := runSize_le digits s
  have hpoint : point ≤ (s.drop whole).length := by
    simp only [point]
    split
    · next t ht =>
      have := runSize_le digits t
      grind
    · exact Nat.zero_le _
  have hexponent : exponent ≤ (s.drop (whole + point)).length := exponentSize_le _
  have hsuffix : suffix ≤ (s.drop (whole + point + exponent)).length := by
    simp only [suffix]
    split <;> grind
  simp only [List.length_drop] at hpoint hexponent hsuffix
  omega

theorem numberSize_le (s : List Char) : numberSize s ≤ s.length := by
  have hdecimal := decimalSize_le s
  unfold numberSize
  split
  · next x t =>
    have := runSize_le (fun c => c.isAlphanum || c == '_') t
    grind
  · exact hdecimal

theorem patternSize?_le {inClass : Bool} {s : List Char} {n : Nat} (h : patternSize? inClass s = some n) :
    n ≤ s.length := by
  fun_induction patternSize? inClass s generalizing n with
  | case1 => cases h
  | case2 inClass c s ih =>
    obtain ⟨m, hm, rfl⟩ := Option.map_eq_some_iff.mp h
    have := ih hm
    grind
  | case3 => cases h
  | case4 inClass c s =>
    have := runSize_le isWordPart s
    grind
  | case5 inClass c s _ _ _ ih =>
    obtain ⟨m, hm, rfl⟩ := Option.map_eq_some_iff.mp h
    have := ih hm
    grind

theorem templateSize_le (s : List Char) : templateSize s ≤ s.length := by
  fun_induction templateSize s <;> grind

theorem elementTextSize_le (s : List Char) : elementTextSize s ≤ s.length :=
  runSize_le _ s

namespace Token

theorem length_markAt_le {s : List Char} (h : s ≠ []) : (markAt s).length ≤ s.length := by
  unfold markAt
  split
  · next m hm =>
    have hprefix := List.find?_some hm
    have hlength := (List.isPrefixOf_iff_prefix.mp hprefix).length_le
    split
    · exact List.length_pos_iff.mpr h
    · simpa only [String.length_toList] using hlength
  · simpa only [String.length_ofList, List.length_take] using Nat.min_le_right 1 s.length

theorem size_read_le (s : List Char) : (read s).2 ≤ s.length := by
  unfold read
  split
  · exact Nat.le_refl _
  · next c s =>
    have hquoted := quotedSize_le c s
    have hword := wordSize_le s
    have hmark := length_markAt_le (List.cons_ne_nil c s)
    split
    · exact numberSize_le (c :: s)
    split
    · exact wordSize_le (c :: s)
    split
    · grind
    split
    · grind
    · exact hmark

theorem ne_nil_of_read {s : List Char} (h : (read s).1 ≠ stop) : s ≠ [] := by
  rintro rfl
  exact h rfl

end Token

/-! ## Gaps -/

namespace Gap

/-- The comments of a gap, in order. -/
def comments (g : Gap) : List Tree :=
  (g.trailing ++ g.leading).map (Tree.leaf .comment)

theorem trailing_readFrom {lineBreak : Bool} (h : lineBreak = true) (at_ : Nat) (place : Place) (s : List Char) :
    (readFrom lineBreak at_ place s).trailing = [] := by
  fun_induction readFrom lineBreak at_ place s <;> simp_all [ofEnd, addComment]

theorem stop_addComment (lineBreak : Bool) (s : Span) (g : Gap) :
    (g.addComment lineBreak s).stop = g.stop ∧ (g.addComment lineBreak s).rest = g.rest := by
  cases lineBreak <;> exact ⟨rfl, rfl⟩

theorem comments_addComment {lineBreak : Bool} {g : Gap} (h : lineBreak = true → g.trailing = []) (s : Span) :
    (g.addComment lineBreak s).comments = Tree.leaf .comment s :: g.comments := by
  cases lineBreak with
  | false => rfl
  | true => simp [addComment, comments, h rfl]

theorem stop_readFrom (lineBreak : Bool) (at_ : Nat) (place : Place) (s : List Char) :
    (readFrom lineBreak at_ place s).stop + (readFrom lineBreak at_ place s).rest.length = at_ + s.length := by
  fun_induction readFrom lineBreak at_ place s <;> simp_all [ofEnd, stop_addComment] <;> omega

/-- Where the comment that is being read starts, or else the next one at the earliest. -/
def Place.start (at_ : Nat) : Place → Nat
  | .between => at_
  | .line start | .block start => start

/-- A comment, and then those of the rest of the gap. -/
theorem fits_addComment (s : Span) {lineBreak : Bool} {g : Gap} (hbreak : lineBreak = true → g.trailing = [])
    (hs : s.start < s.stop) (hg : Tree.Fits s.stop g.stop g.comments) :
    Tree.Fits s.start (g.addComment lineBreak s).stop (g.addComment lineBreak s).comments := by
  rw [comments_addComment hbreak, (stop_addComment lineBreak s g).1]
  exact Tree.Fits.cons_iff.mpr ⟨Nat.le_refl _, decide_eq_true hs.le, Tree.isFilled_node.mpr ⟨fun _ => hs, by simp⟩, hg⟩

/-- The comments of a gap stand in it one after the other. -/
theorem fits_readFrom (lineBreak : Bool) (at_ : Nat) (place : Place) (s : List Char)
    (h : place = .between ∨ place.start at_ < at_) :
    Tree.Fits (place.start at_) (readFrom lineBreak at_ place s).stop (readFrom lineBreak at_ place s).comments := by
  have hin : ∀ {start at_ : Nat},
      (Place.line start = .between ∨ start < at_) ∨ (Place.block start = .between ∨ start < at_) → start < at_ := by
    grind
  fun_induction readFrom lineBreak at_ place s with
  | case1 lineBreak at_ => exact .nil (Nat.le_refl _)
  | case2 lineBreak at_ start =>
    refine fits_addComment ⟨start, at_⟩ (fun _ => rfl) (hin (.inl h)) ?_
    exact .nil (Nat.le_refl _)
  | case3 lineBreak at_ start =>
    refine fits_addComment ⟨start, at_⟩ (fun _ => rfl) (hin (.inr h)) ?_
    exact .nil (Nat.le_refl _)
  | case4 lineBreak at_ s ih => exact ih (.inr (Nat.lt_add_of_pos_right Nat.two_pos))
  | case5 lineBreak at_ s ih => exact ih (.inr (Nat.lt_add_of_pos_right Nat.two_pos))
  | case6 lineBreak at_ c s _ _ _ ih => exact (ih (.inl rfl)).mono (Nat.le_succ _) (Nat.le_refl _)
  | case7 lineBreak at_ c s => exact .nil (Nat.le_refl _)
  | case8 lineBreak at_ start s ih =>
    refine fits_addComment ⟨start, at_⟩ (fun _ => trailing_readFrom rfl ..) (hin (.inl h)) ?_
    exact (ih (.inl rfl)).mono (Nat.le_succ _) (Nat.le_refl _)
  | case9 lineBreak at_ start c s _ ih => exact ih (.inr (Nat.lt_succ_of_lt (hin (.inl h))))
  | case10 lineBreak at_ start s ih =>
    refine fits_addComment ⟨start, at_ + 2⟩ (fun hbreak => trailing_readFrom hbreak ..) (Nat.lt_add_right 2 (hin (.inr h))) ?_
    exact ih (.inl rfl)
  | case11 lineBreak at_ start c s _ ih => exact ih (.inr (Nat.lt_succ_of_lt (hin (.inr h))))

theorem fits_read (at_ : Nat) (s : List Char) : Tree.Fits at_ (read at_ s).stop (read at_ s).comments :=
  fits_readFrom false at_ .between s (.inl rfl)

theorem stop_read (at_ : Nat) (s : List Char) : (read at_ s).stop + (read at_ s).rest.length = at_ + s.length :=
  stop_readFrom false at_ .between s

end Gap

end NameAdvisor
