import NameAdvisor.Source.HeaderComment
import NameAdvisor.Proofs.Text.FirstCut
import NameAdvisor.Proofs.Text.Pieces

/-!
# What a header comment holds

The header comment is the first comment that starts a line and has nothing after it on its last line.  A line comment
is always one comment.  A block comment is read on to the first `*/` that ends its line, so it is one comment exactly
if that is the first `*/` after its opening; otherwise what stands between two comments comes with it.

## Main definitions

* `HeaderComment.IsComment`: texts that are one comment.
* `HeaderComment.Begins`: where a comment is recognised.
-/

namespace NameAdvisor

namespace HeaderComment

open Text

/-! ## Comments -/

/-- The text is one comment: `//` and a text on the same line, or `/*` and a text up to the only `*/` in it. -/
inductive IsComment : List Char → Prop
  | line {text : List Char} (h : '\n' ∉ text) : IsComment ('/' :: '/' :: text)
  | block {body : List Char} (h : ∀ x y, x ++ '*' :: '/' :: y = body ++ ['*', '/'] → y = []) :
    IsComment ('/' :: '*' :: (body ++ ['*', '/']))

theorem IsComment.only_close {body : List Char} (h : IsComment ('/' :: '*' :: (body ++ ['*', '/']))) (x y : List Char)
    (hxy : x ++ '*' :: '/' :: y = body ++ ['*', '/']) : y = [] := by
  generalize hs : '/' :: '*' :: (body ++ ['*', '/']) = s at h
  cases h with
  | line => simp at hs
  | @block body' h =>
    obtain rfl : body = body' := by simpa using hs
    exact h x y hxy

/-- A block comment can end where `rest` starts. -/
def Closes (rest : List Char) : Prop :=
  ∃ after, rest = '*' :: '/' :: after

/-- A block comment can end where `rest` starts, and only blanks follow it on its line. -/
def ClosesLine (rest : List Char) : Prop :=
  ∃ after, rest = '*' :: '/' :: after ∧ endsLine after = true

/-- A comment is recognised: `//`, or `/*` with a `*/` that ends its line somewhere behind it. -/
inductive Begins : List Char → Prop
  | line (text : List Char) : Begins ('/' :: '/' :: text)
  | block {body rest : List Char} (h : ClosesLine rest) : Begins ('/' :: '*' :: (body ++ rest))

/-- A line starts behind `before`. -/
def StartsLine (before : List Char) : Prop :=
  ∀ c ∈ before.getLast?, c = '\n'

theorem ClosesLine.closes {rest : List Char} (h : ClosesLine rest) : Closes rest := by
  obtain ⟨after, rfl, -⟩ := h
  exact ⟨after, rfl⟩

/-! ## Reading one comment -/

theorem throughClose?_of_closesLine {s : List Char} (h : ClosesLine s) : throughClose? s = some ['*', '/'] := by
  obtain ⟨after, rfl, hends⟩ := h
  simp [throughClose?, hends]

theorem throughClose?_cons {c : Char} {s : List Char} (h : ¬ ClosesLine (c :: s)) :
    throughClose? (c :: s) = (throughClose? s).map (c :: ·) := by
  rw [throughClose?.eq_def]
  split
  · contradiction
  · next after heq =>
    obtain ⟨rfl, rfl⟩ := List.cons.inj heq
    rw [if_neg fun hends => h ⟨after, rfl, hends⟩]
  · next heq =>
    obtain ⟨rfl, rfl⟩ := List.cons.inj heq
    rfl

/-- A block comment is read on to the first `*/` that ends its line. -/
theorem throughClose?_eq_some_iff {s text : List Char} :
    throughClose? s = some text ↔
      ∃ body rest, FirstCut (fun _ => ClosesLine) s body rest ∧ text = body ++ ['*', '/'] := by
  induction s generalizing text with
  | nil =>
    constructor
    · simp [throughClose?]
    · rintro ⟨body, rest, hcut, -⟩
      obtain ⟨-, -, after, hafter, -⟩ := FirstCut.nil_iff.mp hcut
      simp at hafter
  | cons c s ih =>
    by_cases hhere : ClosesLine (c :: s)
    · have hcut (before rest : List Char) :
          FirstCut (fun _ => ClosesLine) (c :: s) before rest ↔ before = [] ∧ rest = c :: s := FirstCut.here_iff hhere
      simp [throughClose?_of_closesLine hhere, hcut, eq_comm]
    · have hcut (before rest : List Char) : FirstCut (fun _ => ClosesLine) (c :: s) before rest ↔
          ∃ front, before = c :: front ∧ FirstCut (fun _ => ClosesLine) s front rest := FirstCut.cons_iff hhere
      rw [throughClose?_cons hhere]
      simp only [Option.map_eq_some_iff, ih, hcut]
      constructor
      · rintro ⟨_, ⟨body, rest, hbody, rfl⟩, rfl⟩
        exact ⟨c :: body, rest, ⟨body, rfl, hbody⟩, rfl⟩
      · rintro ⟨_, rest, ⟨body, rfl, hbody⟩, rfl⟩
        exact ⟨body ++ ['*', '/'], ⟨body, rest, hbody, rfl⟩, rfl⟩

theorem isSome_at?_iff {s : List Char} : (at? s).isSome = true ↔ Begins s := by
  constructor
  · rw [at?.eq_def]
    split
    · intro
      exact .line _
    · next inside =>
      rw [Option.isSome_map, Option.isSome_iff_exists]
      rintro ⟨text, htext⟩
      obtain ⟨body, rest, hcut, -⟩ := throughClose?_eq_some_iff.mp htext
      exact hcut.append_eq ▸ .block hcut.holds
    · simp
  · rintro (⟨text⟩ | @⟨body, rest, h⟩)
    · rfl
    · obtain ⟨x, y, hcut⟩ := FirstCut.exists_of_holds (p := fun _ => ClosesLine) (x := body) h
      rw [at?, throughClose?_eq_some_iff.mpr ⟨x, y, hcut, rfl⟩]
      rfl

/-! ## Finding the comment -/

theorem firstFrom_cons_of_begins {c : Char} {s : List Char} (h : Begins (c :: s)) :
    firstFrom true (c :: s) = at? (c :: s) := by
  obtain ⟨comment, hcomment⟩ := Option.isSome_iff_exists.mp (isSome_at?_iff.mpr h)
  simp [firstFrom, hcomment]

theorem firstFrom_cons {fresh : Bool} {c : Char} {s : List Char} (h : fresh = true → ¬ Begins (c :: s)) :
    firstFrom fresh (c :: s) = firstFrom (c == '\n') s := by
  have hnone : (if fresh then at? (c :: s) else none) = none := by
    cases fresh with
    | false => rfl
    | true => simpa [← isSome_at?_iff] using h rfl
  rw [firstFrom, hnone]

/-- The search finds the comment at the first place that starts a line and at which one is recognised; `previous` is
the character before `s`. -/
theorem firstFrom_eq_some_iff {previous : Char} {s comment : List Char} :
    firstFrom (previous == '\n') s = some comment ↔
      ∃ before rest, FirstCut (fun before rest => before.getLast?.getD previous = '\n' ∧ Begins rest) s before rest ∧
        at? rest = some comment := by
  induction s generalizing previous with
  | nil =>
    constructor
    · simp [firstFrom]
    · rintro ⟨before, rest, hcut, hcomment⟩
      obtain ⟨-, rfl, -⟩ := FirstCut.nil_iff.mp hcut
      simp [at?] at hcomment
  | cons c s ih =>
    by_cases hhere : previous = '\n' ∧ Begins (c :: s)
    · obtain ⟨rfl, hbegins⟩ := hhere
      have hcut (before rest : List Char) :
          FirstCut (fun before rest => before.getLast?.getD '\n' = '\n' ∧ Begins rest) (c :: s) before rest ↔
            before = [] ∧ rest = c :: s := FirstCut.here_iff ⟨rfl, hbegins⟩
      simp [firstFrom_cons_of_begins hbegins, hcut]
    · have hcut (before rest : List Char) :
          FirstCut (fun before rest => before.getLast?.getD previous = '\n' ∧ Begins rest) (c :: s) before rest ↔
            ∃ front, before = c :: front ∧
              FirstCut (fun before rest => before.getLast?.getD c = '\n' ∧ Begins rest) s front rest := by
        simpa only [List.getLast?_cons, Option.getD_some] using
          FirstCut.cons_iff (p := fun before rest => before.getLast?.getD previous = '\n' ∧ Begins rest) hhere
      rw [firstFrom_cons fun hfresh hbegins => hhere ⟨by simpa using hfresh, hbegins⟩, ih]
      constructor
      · rintro ⟨before, rest, hrest, hcomment⟩
        exact ⟨c :: before, rest, (hcut _ _).mpr ⟨before, rfl, hrest⟩, hcomment⟩
      · rintro ⟨_, rest, hrest, hcomment⟩
        obtain ⟨before, rfl, hbefore⟩ := (hcut _ _).mp hrest
        exact ⟨before, rest, hbefore, hcomment⟩

/-- The places at which a comment starts a line. -/
def StartsComment (before rest : List Char) : Prop :=
  StartsLine before ∧ Begins rest

theorem startsLine_iff {before : List Char} : StartsLine before ↔ before.getLast?.getD '\n' = '\n' := by
  rw [StartsLine]
  cases before.getLast? <;> simp

theorem firstFrom_true_eq_some_iff {source comment : List Char} :
    firstFrom true source = some comment ↔
      ∃ before rest, FirstCut StartsComment source before rest ∧ at? rest = some comment := by
  have hstarts : StartsComment = fun before rest => before.getLast?.getD '\n' = '\n' ∧ Begins rest := by
    funext before rest
    rw [StartsComment, startsLine_iff]
  rw [hstarts]
  exact @firstFrom_eq_some_iff '\n' source comment

/-! ## The header comment -/

theorem trimChars_line (text : List Char) :
    trimChars ('/' :: '/' :: text) = '/' :: '/' :: (text.reverse.dropWhile isBlank).reverse :=
  have hslash : isBlank '/' = false := rfl
  trimChars_append (x := ['/', '/']) (by simp) (by simp [hslash]) (by simp [hslash]) text

theorem trimChars_block (body : List Char) :
    trimChars ('/' :: '*' :: (body ++ ['*', '/'])) = '/' :: '*' :: (body ++ ['*', '/']) := by
  have hslash : isBlank '/' = false := rfl
  have hlast : ∀ c ∈ ('/' :: '*' :: (body ++ ['*', '/'])).getLast?, isBlank c = false := by
    simp [List.getLast?_cons, List.getLast?_append, hslash]
  simpa using trimChars_append (x := '/' :: '*' :: (body ++ ['*', '/'])) (by simp) (by simp [hslash]) hlast []

theorem toList_ofSource {source : List Char} {comment : List Char} (h : firstFrom true source = some comment) :
    (ofSource source).toList = trimChars comment := by
  rw [ofSource, h, String.toList_ofList, Option.getD_some]

/-- There is no header comment where no comment starts a line. -/
theorem ofSource_of_none {source : List Char} (h : ∀ before rest, ¬ FirstCut StartsComment source before rest) :
    ofSource source = "" := by
  have hnone : firstFrom true source = none := by
    rw [Option.eq_none_iff_forall_ne_some]
    intro comment hcomment
    obtain ⟨before, rest, hcut, -⟩ := firstFrom_true_eq_some_iff.mp hcomment
    exact h before rest hcut
  rw [ofSource, hnone]
  rfl

/-- A line comment is the rest of its line, without the blanks at its end. -/
theorem ofSource_of_line {source before text : List Char}
    (h : FirstCut StartsComment source before ('/' :: '/' :: text)) :
    (ofSource source).toList = '/' :: '/' :: ((text.takeWhile (· ≠ '\n')).reverse.dropWhile isBlank).reverse := by
  rw [toList_ofSource (firstFrom_true_eq_some_iff.mpr ⟨before, _, h, rfl⟩), trimChars_line]

/-- A block comment is read on to the first `*/` that ends its line. -/
theorem ofSource_of_block {source before inside : List Char}
    (h : FirstCut StartsComment source before ('/' :: '*' :: inside)) :
    ∃ body rest, FirstCut (fun _ => ClosesLine) inside body rest ∧
      (ofSource source).toList = '/' :: '*' :: (body ++ ['*', '/']) := by
  obtain ⟨comment, hcomment⟩ := Option.isSome_iff_exists.mp (isSome_at?_iff.mpr h.holds.2)
  obtain ⟨text, htext, rfl⟩ := Option.map_eq_some_iff.mp (show (throughClose? inside).map _ = _ from hcomment)
  obtain ⟨body, rest, hcut, rfl⟩ := throughClose?_eq_some_iff.mp htext
  refine ⟨body, rest, hcut, ?_⟩
  rw [toList_ofSource (firstFrom_true_eq_some_iff.mpr ⟨before, _, h, hcomment⟩), trimChars_block]

theorem isComment_block_iff {body after : List Char} :
    IsComment ('/' :: '*' :: (body ++ ['*', '/'])) ↔
      FirstCut (fun _ => Closes) (body ++ '*' :: '/' :: after) body ('*' :: '/' :: after) := by
  constructor
  · intro h
    refine ⟨rfl, ⟨after, rfl⟩, ?_⟩
    rintro x _ hxy ⟨y, rfl⟩
    by_contra hlt
    have hshort : (x ++ ['*', '/']).length ≤ (body ++ ['*', '/']).length := by
      simp only [List.length_append]
      omega
    have hx : x ++ ['*', '/'] <+: body ++ '*' :: '/' :: after := ⟨y, by simp [← hxy]⟩
    obtain ⟨z, hz⟩ := List.prefix_of_prefix_length_le hx ⟨after, by simp⟩ hshort
    have hnil : z = [] := h.only_close x z (by simpa using hz)
    rw [hnil, List.append_nil] at hz
    obtain rfl := List.append_cancel_right hz
    exact hlt le_rfl
  · intro h
    refine .block ?_
    intro x y hxy
    have hle := h.first x ('*' :: '/' :: (y ++ after)) (by simpa using congrArg (· ++ after) hxy) ⟨_, rfl⟩
    have hlength := congrArg List.length hxy
    simp only [List.length_append, List.length_cons, List.length_nil] at hlength
    exact List.length_eq_zero_iff.mp (by omega)

/-- What was read to the first `*/` that ends its line is one comment exactly if there is no `*/` before that one. -/
theorem isComment_of_cut_iff {inside body rest : List Char} (h : FirstCut (fun _ => ClosesLine) inside body rest) :
    IsComment ('/' :: '*' :: (body ++ ['*', '/'])) ↔
      ∀ x y, FirstCut (fun _ => Closes) inside x y → ClosesLine y := by
  obtain ⟨after, rfl, hends⟩ := h.holds
  rw [@isComment_block_iff body after, h.append_eq]
  constructor
  · intro hfirst x y hxy
    obtain ⟨-, rfl⟩ := hxy.unique hfirst
    exact h.holds
  · intro hends
    obtain ⟨x, y, hxy⟩ := FirstCut.exists_of_holds (p := fun _ => Closes) (x := body) h.holds.closes
    rw [h.append_eq] at hxy
    obtain ⟨rfl, rfl⟩ := h.unique (hxy.restrict (hends x y hxy) fun _ _ => ClosesLine.closes)
    exact hxy

theorem prefix_of_at?_eq_some {s comment : List Char} (h : at? s = some comment) : comment <+: s := by
  rw [at?.eq_def] at h
  split at h
  · obtain rfl := Option.some.inj h
    simpa using List.takeWhile_prefix _
  · obtain ⟨text, htext, rfl⟩ := Option.map_eq_some_iff.mp h
    obtain ⟨body, _, hcut, rfl⟩ := throughClose?_eq_some_iff.mp htext
    obtain ⟨after, rfl⟩ := hcut.holds.closes
    exact ⟨after, by simp [← hcut.append_eq]⟩
  · contradiction

theorem infix_ofSource (source : List Char) : (ofSource source).toList <:+: source := by
  cases hcomment : firstFrom true source with
  | none =>
    rw [ofSource, hcomment]
    exact List.nil_infix
  | some comment =>
    obtain ⟨before, rest, hcut, hat⟩ := firstFrom_true_eq_some_iff.mp hcomment
    obtain ⟨left, right, -, -, htrim, -⟩ := exists_eq_trimChars comment
    rw [toList_ofSource hcomment]
    calc trimChars comment
      _ <:+: comment := ⟨left, right, by rw [List.append_assoc, ← htrim]⟩
      _ <:+: rest := (prefix_of_at?_eq_some hat).isInfix
      _ <:+: source := ⟨before, [], by rw [List.append_nil, hcut.append_eq]⟩

/-- The header comment is a part of the file.  It is nothing or one comment exactly if the comment that was recognised
is not a block comment whose first `*/` has more than blanks behind it on its line. -/
theorem ofSource_isComment_iff (source : List Char) :
    (ofSource source).toList <:+: source ∧
      ((ofSource source = "" ∨ IsComment (ofSource source).toList) ↔
        ∀ before inside, FirstCut StartsComment source before ('/' :: '*' :: inside) →
          ∀ body rest, FirstCut (fun _ => Closes) inside body rest → ClosesLine rest) := by
  refine ⟨infix_ofSource source, ?_, ?_⟩
  · intro hcomment before inside hcut
    obtain ⟨body, rest, hclose, htext⟩ := ofSource_of_block hcut
    refine (isComment_of_cut_iff hclose).mp ?_
    rw [← htext]
    refine hcomment.resolve_left fun hempty => ?_
    simp [hempty] at htext
  · intro hends
    by_cases hcut : ∃ before rest, FirstCut StartsComment source before rest
    · obtain ⟨before, rest, hcut⟩ := hcut
      refine .inr ?_
      cases hcut.holds.2 with
      | line text =>
        rw [ofSource_of_line hcut]
        refine .line fun hmem => ?_
        have hline : '\n' ∈ text.takeWhile (· ≠ '\n') :=
          List.mem_reverse.mp ((List.dropWhile_sublist _).subset (List.mem_reverse.mp hmem))
        simpa using List.all_eq_true.mp List.all_takeWhile _ hline
      | block =>
        obtain ⟨body, rest, hclose, htext⟩ := ofSource_of_block hcut
        rw [htext]
        exact (isComment_of_cut_iff hclose).mpr (hends _ _ hcut)
    · exact .inl (ofSource_of_none fun before rest h => hcut ⟨before, rest, h⟩)

/-- A comment with code behind it on its line brings that code along, up to the comment after it. -/
theorem code_in_header_comment :
    ofSource "/* a */ const x = 1;\n/* b */\n".toList = "/* a */ const x = 1;\n/* b */" ∧
      ¬ IsComment "/* a */ const x = 1;\n/* b */".toList := by
  refine ⟨by cbv, fun h => ?_⟩
  have htext : IsComment ('/' :: '*' :: (" a */ const x = 1;\n/* b ".toList ++ ['*', '/'])) := h
  exact absurd (htext.only_close " a ".toList " const x = 1;\n/* b */".toList (by decide +kernel)) (by decide +kernel)

end HeaderComment

end NameAdvisor
