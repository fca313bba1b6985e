import NameAdvisor.Proofs.Review.Conversation
import NameAdvisor.Proofs.Review.Input
import Mathlib.Data.List.Induction

/-!
# What a course covers

However the replies go, a course presents the identifiers of its files in their order, uses up the lines in theirs, and
hands to the log what was decided, and nothing else.

## Main definitions

* `Review.Visit.Judged`: the replies to a menu are what was made of them.
* `Review.Extends`: what a part of a course adds to it.
* `Review.Opens`: the files that were opened, among those that were reached.
-/

namespace NameAdvisor.Review

variable {π : Type} [NameSource π] {now : Timestamp} {log : DecisionLog}

/-- The replies to the menu are what was made of them: only those that are refused choose nothing. -/
structure Visit.Judged (v : Visit) : Prop where
  refused : ∀ line ∈ v.refused, Choice.read line v.menu.suggestions.length = none
  reply : ∀ x ∈ v.reply, Choice.read x.1 v.menu.suggestions.length = some x.2

/-- What an advisor is asked about the identifier. -/
def Visit.prompt (v : Visit) : PromptContext :=
  ⟨v.menu.identifier.name, v.menu.identifier.kind, v.menu.identifier.sourceContext, v.menu.context⟩

/-- A file system after the decisions of some visits were logged, in their order. -/
def recorded (now : Timestamp) (log : DecisionLog) (fileSystem : FileSystem) (visits : List Visit) : FileSystem :=
  (visits.filterMap (·.decision? now)).foldl (fun fs d => (log.record fs d).2) fileSystem

/-- What the visits of a part of a course add to it: `c` is the course before, `c'` the one after. -/
structure Extends (now : Timestamp) (log : DecisionLog) (c c' : Course π) (new : List Visit) : Prop where
  visits : c'.visits = c.visits ++ new
  lines : c.unread = new.flatMap Visit.lines ++ c'.unread
  judged : ∀ v ∈ new, v.Judged
  menus : new.map (·.menu.suggestions) = (c.advisor.run (new.map Visit.prompt)).map (·.report.suggestions)
  advisor : c'.advisor = c.advisor.afterAll (new.map Visit.prompt)
  fileSystem : c'.fileSystem = recorded now log c.fileSystem new
  running : c'.finished = false → ∀ v ∈ new, v.selected?.isSome
  ended : c'.finished = true → ∃ earlier last, new = earlier ++ [last] ∧ (∀ v ∈ earlier, v.selected?.isSome) ∧
    (last.quits ∨ last.reply = none ∧ c'.unread = [])

namespace Extends

theorem refl {c : Course π} (h : c.finished = false) : Extends now log c c [] where
  visits := by simp
  lines := by simp
  judged := by simp
  menus := rfl
  advisor := rfl
  fileSystem := rfl
  running := by simp
  ended := by simp [h]

theorem say {c c' : Course π} {new : List Visit} (h : Extends now log c c' new) (text : String) :
    Extends now log c (c'.say text) new :=
  ⟨h.visits, h.lines, h.judged, h.menus, h.advisor, h.fileSystem, h.running, h.ended⟩

theorem openFile {c c' : Course π} {new : List Visit} (h : Extends now log c c' new) (p : Path) (a : Analysis) :
    Extends now log c (c'.openFile p a) new :=
  ⟨h.visits, h.lines, h.judged, h.menus, h.advisor, h.fileSystem, h.running, h.ended⟩

theorem trans {c c₁ c₂ : Course π} {new₁ new₂ : List Visit} (h₁ : Extends now log c c₁ new₁) (h : c₁.finished = false)
    (h₂ : Extends now log c₁ c₂ new₂) : Extends now log c c₂ (new₁ ++ new₂) where
  visits := by rw [h₂.visits, h₁.visits, List.append_assoc]
  lines := by rw [h₁.lines, h₂.lines, List.flatMap_append, List.append_assoc]
  judged := by
    intro v hv
    obtain hv | hv := List.mem_append.mp hv
    · exact h₁.judged v hv
    · exact h₂.judged v hv
  menus := by
    rw [List.map_append, List.map_append, Advisor.run_append, List.map_append, h₁.menus, h₂.menus, h₁.advisor]
  advisor := by rw [h₂.advisor, h₁.advisor, List.map_append, Advisor.afterAll_append]
  fileSystem := by
    rw [h₂.fileSystem, h₁.fileSystem, recorded, recorded, recorded, List.filterMap_append, List.foldl_append]
  running := by
    intro ho v hv
    obtain hv | hv := List.mem_append.mp hv
    · exact h₁.running h v hv
    · exact h₂.running ho v hv
  ended := by
    intro ho
    obtain ⟨earlier, last, rfl, he, hl⟩ := h₂.ended ho
    refine ⟨new₁ ++ earlier, last, (List.append_assoc ..).symm, ?_, hl⟩
    intro v hv
    obtain hv | hv := List.mem_append.mp hv
    · exact h₁.running h v hv
    · exact he v hv

end Extends

open Course

/-! ## Visits -/

omit [NameSource π] in
/-- Asking comes to its end with the first reply that chooses something, or with the last line. -/
theorem exists_ask_eq (now : Timestamp) (log : DecisionLog) (c : Course π) (m : Menu) (refused lines : List String) :
    ∃ more reply rest text,
    lines = more ++ (reply.map Prod.fst).toList ++ rest ∧
      ask now log c m refused lines = settle now log (c.say text) ⟨m, refused ++ more, reply⟩ rest ∧
      (∀ line ∈ more, Choice.read line m.suggestions.length = none) ∧
      (∀ x ∈ reply, Choice.read x.1 m.suggestions.length = some x.2) ∧ (reply = none → rest = []) := by
  induction lines generalizing c refused with
  | nil => exact ⟨[], none, [], m.prompt, by simp [ask]⟩
  | cons line lines ih =>
    cases hr : Choice.read line m.suggestions.length with
    | some choice => exact ⟨[], some (line, choice), lines, m.prompt, by simp [ask, hr]⟩
    | none =>
      obtain ⟨more, reply, rest, text, hl, ha, hm, hx, he⟩ :=
        ih (c.say (m.prompt ++ complaint line)) (refused ++ [line])
      refine ⟨line :: more, reply, rest, m.prompt ++ complaint line ++ text, ?_, ?_, ?_, hx, he⟩
      · simp [hl]
      · simp [ask, hr, ha, say_say]
      · exact List.forall_mem_cons.mpr ⟨hr, hm⟩

section Settle

variable (c : Course π) (v : Visit) (rest : List String)

omit [NameSource π]

@[simp] theorem visits_settle : (settle now log c v rest).visits = c.visits ++ [v] := by
  cases hv : v.selected? <;> simp [settle, Visit.decision?, hv]

@[simp] theorem unread_settle : (settle now log c v rest).unread = rest := by
  cases hv : v.selected? <;> simp [settle, Visit.decision?, hv]

@[simp] theorem opened_settle : (settle now log c v rest).opened = c.opened := by
  cases hv : v.selected? <;> simp [settle, Visit.decision?, hv]

@[simp] theorem advisor_settle : (settle now log c v rest).advisor = c.advisor := by
  cases hv : v.selected? <;> simp [settle, Visit.decision?, hv]

@[simp] theorem fileSystem_settle : (settle now log c v rest).fileSystem = recorded now log c.fileSystem [v] := by
  cases hv : v.selected? <;> simp [settle, recorded, Visit.decision?, hv]

@[simp] theorem finished_settle : (settle now log c v rest).finished = (c.finished || v.selected?.isNone) := by
  cases hv : v.selected? <;> simp [settle, Visit.decision?, hv]

end Settle

/-- One more identifier is one more visit. -/
theorem extends_visit (now : Timestamp) (log : DecisionLog) {c : Course π} (h : c.finished = false) (p : Path)
    (context : FileContext) (i : Identifier) :
    ∃ v, v.place = (p, context, i) ∧ Extends now log c (visit now log p context c i) [v] ∧
      (visit now log p context c i).opened = c.opened := by
  set m := (menuOf c.advisor p context i).1 with hm
  set c₀ : Course π := { c with advisor := (menuOf c.advisor p context i).2 }.say m.text with hc₀
  obtain ⟨more, reply, rest, text, hl, ha, hr, hx, he⟩ := exists_ask_eq now log c₀ m [] c.unread
  have hv : visit now log p context c i = settle now log (c₀.say text) ⟨m, more, reply⟩ rest := by
    rw [visit, if_neg (by simp [h])]
    exact ha
  rw [hv]
  refine ⟨⟨m, more, reply⟩, rfl, ?_, by simp [c₀]⟩
  constructor
  case visits => simp [c₀]
  case lines => simp [hl, Visit.lines]
  case judged => exact fun v hv => List.mem_singleton.mp hv ▸ ⟨hr, hx⟩
  case menus => rfl
  case advisor => simp [c₀]; rfl
  case fileSystem => simp [c₀]
  case running => simp
  case ended =>
    intro ho
    have hs : Visit.selected? ⟨m, more, reply⟩ = none := by simpa [c₀, h] using ho
    refine ⟨[], ⟨m, more, reply⟩, rfl, by simp, ?_⟩
    rcases reply with _ | ⟨line, choice⟩
    · exact .inr ⟨rfl, by simpa using he⟩
    · obtain rfl := quit_of_unchosen (hx (line, choice) (Option.mem_some_self _)) hs
      exact .inl rfl

/-- The identifiers of a file that was opened, in their order. -/
def placesOf (opened : Path × Analysis) : List (Path × FileContext × Identifier) :=
  opened.2.identifiers.map (opened.1, opened.2.fileContext, ·)

/-- The identifiers of a file are visited one by one, up to the end of the course. -/
theorem extends_foldl_visit (now : Timestamp) (log : DecisionLog) {c : Course π} (h : c.finished = false) (p : Path)
    (context : FileContext) (identifiers : List Identifier) :
    ∃ new, Extends now log c (identifiers.foldl (visit now log p context) c) new ∧
      new.map Visit.place <+: identifiers.map (p, context, ·) ∧
      ((identifiers.foldl (visit now log p context) c).finished = false → new.length = identifiers.length) ∧
      (identifiers.foldl (visit now log p context) c).opened = c.opened := by
  induction identifiers generalizing c with
  | nil => exact ⟨[], .refl h, by simp, by simp, rfl⟩
  | cons i later ih =>
    obtain ⟨v, hp, he, ho⟩ := extends_visit now log h p context i
    rw [List.foldl_cons]
    cases hfin : (visit now log p context c i).finished with
    | true =>
      rw [foldl_visit_of_finished hfin]
      refine ⟨[v], he, ?_, by simp [hfin], ho⟩
      simp [hp]
    | false =>
      obtain ⟨new, he', hpre, hlen, ho'⟩ := ih hfin
      refine ⟨v :: new, he.trans hfin he', ?_, fun h' => by simp [hlen h'], ho'.trans ho⟩
      simpa [hp] using hpre

/-! ## Files -/

/-- The files that can be analysed are opened, each as it was once the decisions on the files before it were
logged; the others are skipped. -/
inductive Opens (now : Timestamp) (log : DecisionLog) (fileSystem : FileSystem) (visits : List Visit) :
    List Path → List (Path × Analysis) → Prop
  | start : Opens now log fileSystem visits [] []
  | skips {reached opened p e} (before : Opens now log fileSystem visits reached opened)
    (unreadable : Analysis.ofFile
      (recorded now log fileSystem (visits.take (opened.flatMap placesOf).length)) p = .error e) :
    Opens now log fileSystem visits (reached ++ [p]) opened
  | opens {reached opened p a} (before : Opens now log fileSystem visits reached opened)
    (readable : Analysis.ofFile
      (recorded now log fileSystem (visits.take (opened.flatMap placesOf).length)) p = .ok a) :
    Opens now log fileSystem visits (reached ++ [p]) (opened ++ [(p, a)])

/-- Later visits do not change which files were opened. -/
theorem Opens.append {fileSystem : FileSystem} {visits : List Visit} {reached : List Path}
    {opened : List (Path × Analysis)} (h : Opens now log fileSystem visits reached opened)
    (hl : (opened.flatMap placesOf).length ≤ visits.length) (more : List Visit) :
    Opens now log fileSystem (visits ++ more) reached opened := by
  induction h with
  | start => exact .start
  | @skips _ _ _ e _ hp ih =>
    refine Opens.skips (e := e) (ih hl) ?_
    rw [List.take_append_of_le_length hl]
    exact hp
  | opens _ hp ih =>
    have hle := hl
    rw [List.flatMap_append, List.length_append] at hle
    have hle' := Nat.le_of_add_right_le hle
    refine .opens (ih hle') ?_
    rw [List.take_append_of_le_length hle']
    exact hp

/-- What a course that started as `c₀` has covered when it has reached some files. -/
structure Covers (now : Timestamp) (log : DecisionLog) (c₀ : Course π) (reached : List Path) (c : Course π) :
    Prop where
  added : Extends now log c₀ c c.visits
  files : Opens now log c₀.fileSystem c.visits reached c.opened
  /-- While it goes on, it has presented every identifier. -/
  places : c.finished = false → c.visits.map Visit.place = c.opened.flatMap placesOf
  /-- Once it is over, it has presented every identifier of the files before the last, and some of the last. -/
  stopped : c.finished = true → ∃ before last here, c.opened = before ++ [last] ∧
    c.visits.map Visit.place = before.flatMap placesOf ++ here ∧ here ≠ [] ∧ here <+: placesOf last

theorem Covers.file {c₀ c : Course π} {reached : List Path} (h : Covers now log c₀ reached c) (ho : c.finished = false)
    (p : Path) : Covers now log c₀ (reached ++ [p]) (Course.file now log c p) := by
  have hplaces := h.places ho
  -- the visits so far are those of the files so far, so their decisions were logged when `p` is opened
  have hlen : (c.opened.flatMap placesOf).length = c.visits.length := by rw [← hplaces, List.length_map]
  have hfs : recorded now log c₀.fileSystem (c.visits.take (c.opened.flatMap placesOf).length) = c.fileSystem := by
    rw [hlen, List.take_length, h.added.fileSystem]
  cases ha : Analysis.ofFile c.fileSystem p with
  | error e =>
    have hc : Course.file now log c p = c.say (skipped p e) := by simp [Course.file, ho, ha]
    rw [hc]
    exact ⟨h.added.say _, h.files.skips (hfs ▸ ha), h.places, h.stopped⟩
  | ok a =>
    have hc : Course.file now log c p = a.identifiers.foldl (visit now log p a.fileContext) (c.openFile p a) := by
      simp [Course.file, ho, ha]
    have hfin : (c.openFile p a).finished = false := ho
    obtain ⟨new, he, hpre, hall, hopened⟩ :=
      extends_foldl_visit now log hfin p a.fileContext a.identifiers
    rw [← hc] at he hall hopened
    have hvisits : (Course.file now log c p).visits = c.visits ++ new := he.visits
    have hmap : (Course.file now log c p).visits.map Visit.place = c.opened.flatMap placesOf ++ new.map Visit.place := by
      rw [hvisits, List.map_append, hplaces]
    constructor
    case added =>
      rw [hvisits]
      exact (h.added.openFile p a).trans hfin he
    case files =>
      have hf := (h.files.append (hlen ▸ Nat.le_refl _) new).opens (p := p) (a := a)
      rw [hvisits, hopened]
      refine hf ?_
      rw [List.take_append_of_le_length (Nat.le_of_eq hlen), hfs]
      exact ha
    case places =>
      intro hgo
      have heq : new.map Visit.place = placesOf (p, a) := hpre.eq_of_length (by simpa using hall hgo)
      rw [hmap, hopened, heq]
      simp [Course.openFile]
    case stopped =>
      intro hend
      refine ⟨c.opened, (p, a), new.map Visit.place, hopened, hmap, ?_, hpre⟩
      obtain ⟨earlier, last, hn, -⟩ := he.ended hend
      simp [hn]

/-- A course covers the files that it reaches: all of them, unless it is over before. -/
theorem exists_covers (now : Timestamp) (log : DecisionLog) (c₀ : Course π) (ho : c₀.finished = false)
    (hv : c₀.visits = []) (hf : c₀.opened = []) (files : List Path) : ∃ reached left, files = reached ++ left ∧
      Covers now log c₀ reached (files.foldl (Course.file now log) c₀) ∧
      ((files.foldl (Course.file now log) c₀).finished = false → left = []) := by
  -- from the last file on: once the course is finished it stays, and the files after that are left
  induction files using List.reverseRecOn with
  | nil =>
    refine ⟨[], [], rfl, ⟨?_, ?_, by simp [hv, hf], by simp [ho]⟩, fun _ => rfl⟩
    · rw [List.foldl_nil, hv]
      exact .refl ho
    · rw [List.foldl_nil, hf]
      exact .start
  | append_singleton files p ih =>
    obtain ⟨reached, left, rfl, hc, hl⟩ := ih
    rw [List.foldl_append, List.foldl_cons, List.foldl_nil]
    cases hfin : ((reached ++ left).foldl (Course.file now log) c₀).finished with
    | true =>
      have hp : Course.file now log ((reached ++ left).foldl (Course.file now log) c₀) p = _ :=
        foldl_file_of_finished hfin [p]
      rw [hp]
      exact ⟨reached, left ++ [p], List.append_assoc .., hc, fun h => absurd h (hfin ▸ Bool.noConfusion)⟩
    | false =>
      obtain rfl := hl hfin
      exact ⟨reached ++ [p], [], by simp, hc.file hfin p, fun _ => rfl⟩

/-! ## Counting the lines -/

/-- An identifier is answered, or the review is ended at it. -/
theorem Visit.quits_eq_false {v : Visit} (h : v.selected?.isSome) : v.quits = false := by
  obtain ⟨m, refused, reply⟩ := v
  rcases reply with _ | ⟨line, _ | _ | _⟩ <;> simp_all [Visit.selected?, Visit.quits, Menu.chosen]

theorem Visit.Judged.length_lines {v : Visit} (h : v.Judged) :
    v.lines.length = v.selected?.isSome.toNat + v.refused.length + v.quits.toNat := by
  obtain ⟨m, refused, reply⟩ := v
  cases reply with
  | none => simp [Visit.lines, Visit.selected?, Visit.quits]
  | some x =>
    rcases x with ⟨line, choice⟩
    have hread := h.reply (line, choice) (Option.mem_some_self _)
    cases hs : m.chosen choice with
    | none =>
      obtain rfl := quit_of_unchosen hread hs
      simp [Visit.lines, Visit.selected?, Visit.quits, Menu.chosen]
    | some selected =>
      have hv : Visit.selected? ⟨m, refused, some (line, choice)⟩ = some selected := hs
      rw [Visit.quits_eq_false (by simp [hv]), hv]
      simp [Visit.lines, Nat.add_comm]

theorem length_lines {visits : List Visit} (h : ∀ v ∈ visits, v.Judged) :
    (visits.flatMap Visit.lines).length =
      visits.countP (·.selected?.isSome) + (visits.flatMap (·.refused)).length + visits.countP Visit.quits := by
  induction visits with
  | nil => rfl
  | cons v visits ih =>
    obtain ⟨hv, hvs⟩ := List.forall_mem_cons.mp h
    rw [List.flatMap_cons, List.length_append, hv.length_lines, ih hvs, List.countP_cons, List.countP_cons,
      List.flatMap_cons, List.length_append]
    cases v.selected?.isSome <;> cases v.quits <;> simp <;> omega

/-- Only the last reply can end a review. -/
theorem Covers.countP_quits {c₀ c : Course π} {reached : List Path} (h : Covers now log c₀ reached c) :
    c.visits.countP Visit.quits = (c.visits.getLast?.any Visit.quits).toNat := by
  have hzero : ∀ visits : List Visit, (∀ v ∈ visits, v.selected?.isSome) → visits.countP Visit.quits = 0 := by
    intro visits hv
    refine List.countP_eq_zero.mpr fun v hm => ?_
    simp [Visit.quits_eq_false (hv v hm)]
  cases ho : c.finished with
  | false =>
    -- the last visit answers its identifier, like all others
    have hv := h.added.running ho
    rw [hzero _ hv]
    cases hl : c.visits.getLast? with
    | none => rfl
    | some v => simp [Visit.quits_eq_false (hv v (List.mem_of_getLast? hl))]
  | true =>
    obtain ⟨earlier, last, hv, he, -⟩ := h.added.ended ho
    rw [hv, List.countP_append, hzero _ he]
    cases hq : last.quits <;> simp [hq]

theorem length_decisions (visits : List Visit) :
    (visits.filterMap (·.decision? now)).length = visits.countP (·.selected?.isSome) := by
  induction visits with
  | nil => rfl
  | cons v visits ih =>
    have hd : (v.decision? now).isSome = v.selected?.isSome := by simp [Visit.decision?]
    rw [List.filterMap_cons, List.countP_cons, ← ih, ← hd]
    cases v.decision? now <;> rfl

/-! ## A whole review -/

/-- A review of some files with an input is the course of its lines: it comes to the same end with the same words, and
leaves what the course has not read.  The course covers the files in their order, up to the one at which it is over; its
lines are those that answer an identifier, those that are refused, and at most one that ends it. -/
theorem converse_covers (advisor : Advisor π) (fileSystem : FileSystem) (log : DecisionLog) (files : List Path)
    (now : Timestamp) (text : String) :
    let started := start advisor fileSystem log files
    let t := converse now started.2 (inputLines (Utf8.encode text))
    let c := Course.ofFiles now log advisor fileSystem files (Text.lines text)
    Ends t started.1 c ∧
      (∃ reached left, files = reached ++ left ∧
        Covers now log (initial advisor fileSystem files (Text.lines text)) reached c ∧
        (c.finished = false → left = [])) ∧
      (Text.lines text).length = c.unread.length + (c.visits.countP (·.selected?.isSome) +
        (c.visits.flatMap (·.refused)).length + (c.visits.getLast?.any Visit.quits).toNat) ∧
      (c.visits.filterMap (·.decision? now)).length = c.visits.countP (·.selected?.isSome) ∧
      t.review.stats =
        ⟨c.opened.length, (c.opened.flatMap (·.2.identifiers)).length, c.visits.countP Visit.selects⟩ := by
  intro started t c
  have hends : Ends t started.1 c := by
    have h := start_ends advisor fileSystem log files now (Text.lines text)
    rw [← inputLines_encode] at h
    exact h
  obtain ⟨reached, left, hfiles, hcovers, hleft⟩ :=
    exists_covers now log (initial advisor fileSystem files (Text.lines text)) rfl rfl rfl files
  refine ⟨hends, ⟨reached, left, hfiles, hcovers, hleft⟩, ?_, length_decisions _, hends.stats⟩
  have hlines : Text.lines text = c.visits.flatMap Visit.lines ++ c.unread := hcovers.added.lines
  have hjudged : ∀ v ∈ c.visits, v.Judged := hcovers.added.judged
  have hquits : c.visits.countP Visit.quits = (c.visits.getLast?.any Visit.quits).toNat := hcovers.countP_quits
  rw [hlines, List.length_append, length_lines hjudged, hquits, Nat.add_comm]

end NameAdvisor.Review
