import NameAdvisor.Proofs.Review.Course

/-!
# A conversation follows its course

A review goes on from reply to reply and remembers between two replies what is left to do.  Here it is compared with
the loops of its course: whatever the replies, both come to the same end, with the same words.

## Main definitions

* `Review.Follows`: a review that has come as far as a course.
* `Review.resumed`: the course of what is left to do in a review.
* `Review.Ends`: a conversation that is at its end, as a course is.
-/

namespace NameAdvisor.Review

variable {π : Type} [NameSource π] {now : Timestamp} {log : DecisionLog}

open Course

/-- What a course does next when a review waits for a reply to its menu. -/
def resumed (now : Timestamp) (log : DecisionLog) (r : Review π) (c : Course π) (refused lines : List String) :
    Course π :=
  match r.menu with
  | none => c
  | some m =>
    r.queue.foldl (file now log)
      (m.later.foldl (visit now log m.file m.context) (ask now log c { m with later := [] } refused lines))

/-- The review has come as far as the course. -/
structure Agrees (log : DecisionLog) (r : Review π) (c : Course π) : Prop where
  advisor : r.advisor = c.advisor
  fileSystem : r.fileSystem = c.fileSystem
  log : r.log = log
  stats : r.stats = c.stats
  running : c.finished = false

/-- The review has come as far as the course, and `said` is what was written so far. -/
structure Follows (log : DecisionLog) (r : Review π) (said : String) (c : Course π) : Prop extends
    Agrees log r c where
  said : said = c.output ++ if r.menu.isSome then "" else c.stats.summary
  menu : ∀ m ∈ r.menu, m.identifier.name ∉ m.suggestions

omit [NameSource π] in
theorem Agrees.say {r : Review π} {c : Course π} (h : Agrees log r c) (text : String) :
    Agrees log r (c.say text) :=
  ⟨h.advisor, h.fileSystem, h.log, h.stats, h.running⟩

/-! ## Opening files -/

/-- The review after a file was counted. -/
def counted (r : Review π) (a : Analysis) : Review π :=
  { r with stats := { r.stats with
    files := r.stats.files + 1, identifiers := r.stats.identifiers + a.identifiers.length } }

omit [NameSource π] in
theorem Agrees.openFile {r : Review π} {c : Course π} (h : Agrees log r c) (p : Path) (a : Analysis) :
    Agrees log (r.counted a) (c.openFile p a) := by
  refine ⟨h.advisor, h.fileSystem, h.log, ?_, h.running⟩
  simp [counted, Course.openFile, Course.say, Course.stats, h.stats]

/-- One step of opening files, as it stands; in brackets, since the equation is not one for `dsimp`. -/
theorem openNext_cons (r : Review π) (p : Path) (rest : List Path) :
    openNext r (p :: rest) =
      let title := "\nFile: " ++ p.text ++ "\n"
      match Analysis.ofFile r.fileSystem p with
      | .error e => (title ++ "  skipped: " ++ e.message ++ "\n" ++ (openNext r rest).1, (openNext r rest).2)
      | .ok a =>
        let r' : Review π := { r with stats := { r.stats with files := r.stats.files + 1 } }
        match a.identifiers with
        | [] => (title ++ "  No identifiers to review in this file.\n" ++ (openNext r' rest).1, (openNext r' rest).2)
        | i :: later =>
          let shown := present { r.counted a with queue := rest } p a.fileContext i later
          (title ++ fileSummary a ++ shown.1, shown.2) := (rfl)

theorem openNext_of_error {r : Review π} {p : Path} {e : AnalysisError} (h : Analysis.ofFile r.fileSystem p = .error e)
    (rest : List Path) : openNext r (p :: rest) = (skipped p e ++ (openNext r rest).1, (openNext r rest).2) := by
  rw [openNext_cons]
  simp only [h, skipped, String.append_assoc]

theorem openNext_of_nil {r : Review π} {p : Path} {a : Analysis} (h : Analysis.ofFile r.fileSystem p = .ok a)
    (hi : a.identifiers = []) (rest : List Path) : openNext r (p :: rest) =
      (introduction p a ++ (openNext (r.counted a) rest).1, (openNext (r.counted a) rest).2) := by
  rw [openNext_cons]
  simp [h, hi, introduction, counted, String.append_assoc]

theorem openNext_of_cons {r : Review π} {p : Path} {a : Analysis} (h : Analysis.ofFile r.fileSystem p = .ok a)
    {i : Identifier} {later : List Identifier} (hi : a.identifiers = i :: later) (rest : List Path) :
    openNext r (p :: rest) =
      (introduction p a ++ (present { r.counted a with queue := rest } p a.fileContext i later).1,
        (present { r.counted a with queue := rest } p a.fileContext i later).2) := by
  rw [openNext_cons]
  simp [h, hi, introduction]

/-! ## Going on after a reply -/

theorem name_notMem_resolve (a : Advisor π) (i : Identifier) (context : FileContext) :
    i.name ∉ (a.resolve i.name i.kind i.sourceContext context).1.suggestions :=
  (Advisor.accounts_step a ⟨i.name, i.kind, i.sourceContext, context⟩).current_notMem_suggestions

theorem follows_present (now : Timestamp) {r : Review π} {c : Course π} (h : Agrees log r c) (p : Path)
    (context : FileContext) (i : Identifier) (later : List Identifier) :
    ∃ c₁, Follows log (present r p context i later).2 (c.output ++ (present r p context i later).1) c₁ ∧
      c₁.unread = c.unread ∧ r.queue.foldl (file now log) ((i :: later).foldl (visit now log p context) c) =
        resumed now log (present r p context i later).2 c₁ [] c.unread := by
  refine ⟨{ c with advisor := (menuOf c.advisor p context i).2 }.say (menuOf c.advisor p context i).1.text, ?_, rfl, ?_⟩
  · refine ⟨⟨by simp [present, menuOf, h.advisor], h.fileSystem, h.log, h.stats, h.running⟩, ?_, ?_⟩
    · simp [present, menuOf, h.advisor, Menu.text, Menu.lineText]
    · intro m hm
      obtain rfl : _ = m := by simpa [present] using hm
      exact name_notMem_resolve _ _ _
  · simp [resumed, visit, present, menuOf, h.running, h.advisor]

/-- Files without identifiers are passed over, up to the next menu or the end. -/
theorem follows_openNext (now : Timestamp) {r : Review π} {c : Course π} (h : Agrees log r c) (files : List Path) :
    ∃ c₁, Follows log (openNext r files).2 (c.output ++ (openNext r files).1) c₁ ∧ c₁.unread = c.unread ∧
      files.foldl (file now log) c = resumed now log (openNext r files).2 c₁ [] c.unread := by
  -- along the files, as long as none of them has an identifier to present
  induction files generalizing r c with
  | nil =>
    have hn : openNext r [] = (r.stats.summary, { r with queue := [], menu := none }) := (rfl)
    rw [hn]
    refine ⟨c, ⟨⟨h.advisor, h.fileSystem, h.log, h.stats, h.running⟩, ?_, ?_⟩, rfl, rfl⟩
    · simp [h.stats]
    · simp
  | cons p rest ih =>
    rw [List.foldl_cons]
    cases ha : Analysis.ofFile c.fileSystem p with
    | error e =>
      have hr : Analysis.ofFile r.fileSystem p = .error e := h.fileSystem ▸ ha
      have hc : file now log c p = c.say (skipped p e) := by simp [file, h.running, ha]
      rw [openNext_of_error hr, hc]
      simpa [String.append_assoc] using ih (h.say (skipped p e))
    | ok a =>
      have hr : Analysis.ofFile r.fileSystem p = .ok a := h.fileSystem ▸ ha
      have ho := h.openFile p a
      cases hi : a.identifiers with
      | nil =>
        have hc : file now log c p = c.openFile p a := by simp [file, h.running, ha, hi]
        rw [openNext_of_nil hr hi, hc]
        simpa [Course.openFile, String.append_assoc] using ih ho
      | cons i later =>
        have hc : file now log c p = (i :: later).foldl (visit now log p a.fileContext) (c.openFile p a) := by
          simp [file, h.running, ha, hi]
        have ho' : Agrees log { r.counted a with queue := rest } (c.openFile p a) :=
          ⟨ho.advisor, ho.fileSystem, ho.log, ho.stats, ho.running⟩
        rw [openNext_of_cons hr hi, hc]
        simpa [Course.openFile, String.append_assoc] using
          follows_present now ho' p a.fileContext i later

/-- A name that is chosen by its number is not the present one. -/
theorem selects_iff {m : Menu} (hm : m.identifier.name ∉ m.suggestions) {choice : Choice} {selected : String}
    (hs : m.chosen choice = some selected) (refused : List String) (line : String) :
    Visit.selects ⟨m, refused, some (line, choice)⟩ = true ↔ selected ≠ m.identifier.name := by
  cases choice with
  | keep =>
    obtain rfl : m.identifier.name = selected := Option.some.inj hs
    simp [Visit.selects]
  | select n =>
    have hmem : selected ∈ m.suggestions := List.mem_of_getElem? hs
    have hne : selected ≠ m.identifier.name := fun he => hm (he ▸ hmem)
    simpa [Visit.selects] using hne
  | quit => cases hs

/-- What is logged of a name that is taken for the identifier of a menu. -/
def decisionOf (now : Timestamp) (m : Menu) (selected : String) : Decision :=
  ⟨now, m.file, m.identifier, m.context, m.suggestions, selected⟩

/-- What is said of a name that is taken for the identifier of a menu. -/
def remark (now : Timestamp) (log : DecisionLog) (fileSystem : FileSystem) (m : Menu) (selected : String) : String :=
  m.confirmation selected ++
    match (log.record fileSystem (decisionOf now m selected)).1 with
    | .ok _ => ""
    | .error _ => m.notLogged

/-- The review after a decision was logged, and before it goes on. -/
def logged (now : Timestamp) (r : Review π) (m : Menu) (selected : String) : Review π :=
  { r with
    fileSystem := (r.log.record r.fileSystem (decisionOf now m selected)).2
    stats := { r.stats with
      renamed := if selected = m.identifier.name then r.stats.renamed else r.stats.renamed + 1 } }

/-- Goes on after a menu: with the next identifier of its file, or with the next file. -/
def onward (r : Review π) (m : Menu) : String × Review π :=
  match m.later with
  | i :: later => present r m.file m.context i later
  | [] => openNext r r.queue

theorem take_eq (r : Review π) (m : Menu) (selected : String) :
    take now r m selected = (remark now r.log r.fileSystem m selected ++ (onward (logged now r m selected) m).1,
      (onward (logged now r m selected) m).2) := by
  cases hl : m.later <;> simp only [take, onward, hl] <;> rfl

theorem follows_onward (now : Timestamp) {r : Review π} {c : Course π} (h : Agrees log r c) (m : Menu) :
    ∃ c₁, Follows log (onward r m).2 (c.output ++ (onward r m).1) c₁ ∧ c₁.unread = c.unread ∧
      r.queue.foldl (file now log) (m.later.foldl (visit now log m.file m.context) c) =
        resumed now log (onward r m).2 c₁ [] c.unread := by
  cases hl : m.later with
  | nil =>
    have ho : onward r m = openNext r r.queue := by simp only [onward, hl]
    rw [ho]
    exact follows_openNext now h r.queue
  | cons i later =>
    have ho : onward r m = present r m.file m.context i later := by simp only [onward, hl]
    rw [ho]
    exact follows_present now h m.file m.context i later

omit [NameSource π] in
/-- A reply that takes a name: the decision is logged, and the course goes on with the lines after the reply. -/
theorem settle_of_chosen (now : Timestamp) (log : DecisionLog) (c : Course π) {v : Visit} {selected : String}
    (hv : v.selected? = some selected) (rest : List String) : settle now log c v rest =
      { c with
        fileSystem := (log.record c.fileSystem (decisionOf now v.menu selected)).2
        unread := rest
        visits := c.visits ++ [v]
        output := c.output ++ remark now log c.fileSystem v.menu selected } := by
  simp only [settle, Visit.decision?, hv]
  rfl

omit [NameSource π] in
theorem Agrees.settle {r : Review π} {c : Course π} (h : Agrees log r c) {m : Menu}
    (hm : m.identifier.name ∉ m.suggestions) {choice : Choice} {selected : String}
    (hs : m.chosen choice = some selected) (refused : List String) (line : String) (rest : List String) :
    Agrees log (logged now r m selected) (settle now log c ⟨m, refused, some (line, choice)⟩ rest) := by
  have hv : Visit.selected? ⟨m, refused, some (line, choice)⟩ = some selected := hs
  have hsel := selects_iff hm hs refused line
  rw [settle_of_chosen now log c hv]
  refine ⟨h.advisor, ?_, h.log, ?_, h.running⟩
  · simp [logged, h.fileSystem, h.log]
  · simp only [logged, h.stats]
    by_cases he : selected = m.identifier.name <;> simp_all [Course.stats]

/-- A name that is taken for the identifier of a menu leads both to the next menu, or to the end. -/
theorem follows_take (now : Timestamp) {r : Review π} {c : Course π} (h : Agrees log r c) {m : Menu}
    (hm : m.identifier.name ∉ m.suggestions) {choice : Choice} {selected : String}
    (hs : m.chosen choice = some selected) (refused : List String) (line : String) (rest : List String) :
    ∃ c₁, Follows log (take now r m selected).2 (c.output ++ (take now r m selected).1) c₁ ∧ c₁.unread = rest ∧
      r.queue.foldl (file now log) (m.later.foldl (visit now log m.file m.context)
          (settle now log c ⟨{ m with later := [] }, refused, some (line, choice)⟩ rest)) =
        resumed now log (take now r m selected).2 c₁ [] rest := by
  have hs' : Menu.chosen { m with later := [] } choice = some selected := by cases choice <;> exact hs
  have ha : Agrees log (logged now r m selected) _ := h.settle (m := { m with later := [] }) hm hs' refused line rest
  have hv : Visit.selected? ⟨{ m with later := [] }, refused, some (line, choice)⟩ = some selected := hs'
  have hc := settle_of_chosen now log c hv rest
  obtain ⟨c₁, hf, hu, he⟩ := follows_onward now ha m
  rw [take_eq]
  refine ⟨c₁, ?_, ?_, ?_⟩
  · rw [hc, String.append_assoc] at hf
    rw [h.fileSystem, h.log]
    exact hf
  · rw [hu, hc]
  · rw [hc] at he ⊢
    exact he

/-! ## The end -/

omit [NameSource π] in
theorem settle_of_unchosen {c : Course π} {v : Visit} (hv : v.selected? = none) (rest : List String) :
    settle now log c v rest = { c with unread := rest, visits := c.visits ++ [v], finished := true } := by
  simp [settle, Visit.decision?, hv]

theorem foldl_visit_of_finished {c : Course π} (h : c.finished = true) (p : Path) (context : FileContext)
    (identifiers : List Identifier) : identifiers.foldl (visit now log p context) c = c := by
  induction identifiers with
  | nil => rfl
  | cons i rest ih =>
    have hi : visit now log p context c i = c := by simp [visit, h]
    rw [List.foldl_cons, hi, ih]

theorem foldl_file_of_finished {c : Course π} (h : c.finished = true) (files : List Path) :
    files.foldl (file now log) c = c := by
  induction files with
  | nil => rfl
  | cons p rest ih =>
    have hp : file now log c p = c := by simp [file, h]
    rw [List.foldl_cons, hp, ih]

/-- The conversation is at its end, as the course is, and `said` with what it wrote is what the course wrote and the
summary. -/
structure Ends (t : Transcript π) (said : String) (c : Course π) : Prop where
  brokenOff : t.brokenOff = none
  menu : t.review.menu = none
  advisor : t.review.advisor = c.advisor
  fileSystem : t.review.fileSystem = c.fileSystem
  stats : t.review.stats = c.stats
  unread : t.unread = c.unread.map Utf8.encode
  said : said ++ t.output = c.output ++ c.stats.summary

omit [NameSource π] in
theorem Ends.prepend {t : Transcript π} {said text : String} {c : Course π} (h : Ends t (said ++ text) c) :
    Ends { t with output := text ++ t.output } said c :=
  ⟨h.brokenOff, h.menu, h.advisor, h.fileSystem, h.stats, h.unread, by simpa [String.append_assoc] using h.said⟩

theorem converse_of_none {r : Review π} (h : r.menu = none) (lines : List ByteArray) :
    converse now r lines = { output := "", review := r, unread := lines } := by
  cases lines <;> simp [converse, h]

theorem converse_nil {r : Review π} {m : Menu} (h : r.menu = some m) :
    converse now r [] = { output := m.prompt ++ (finish r).1, review := (finish r).2, unread := [] } := by
  simp [converse, h]

theorem converse_of_cons {r : Review π} {m : Menu} (h : r.menu = some m) (line : String) (rest : List ByteArray) :
    converse now r (Utf8.encode line :: rest) =
      { converse now (reply now r m line).2 rest with
        output := m.prompt ++ (reply now r m line).1 ++ (converse now (reply now r m line).2 rest).output } := by
  simp [converse, h, hear]

theorem ends_of_none {r : Review π} {said : String} {c : Course π} (h : Follows log r said c) (hm : r.menu = none) :
    Ends (converse now r (c.unread.map Utf8.encode)) said c := by
  rw [converse_of_none hm]
  refine ⟨rfl, hm, h.advisor, h.fileSystem, h.stats, rfl, ?_⟩
  simp [h.said, hm]

/-- Once a menu is left without a choice, nothing is left to do. -/
theorem resumed_of_unchosen {c : Course π} {v : Visit} (hv : v.selected? = none) (m : Menu) (files : List Path)
    (rest : List String) :
    files.foldl (file now log) (m.later.foldl (visit now log m.file m.context) (settle now log c v rest)) =
      { c with unread := rest, visits := c.visits ++ [v], finished := true } := by
  rw [settle_of_unchosen hv, foldl_visit_of_finished rfl, foldl_file_of_finished rfl]

/-- A reply that is read but takes no name is the one that ends the review. -/
theorem quit_of_unchosen {m : Menu} {line : String} {choice : Choice}
    (hr : Choice.read line m.suggestions.length = some choice) (hs : m.chosen choice = none) : choice = .quit := by
  cases choice with
  | keep => cases hs
  | select n =>
    have hlt := Choice.lt_of_read_eq_select hr
    have hle : m.suggestions.length ≤ n := List.getElem?_eq_none_iff.mp hs
    omega
  | quit => rfl

/-! ## What a line does to what is left to do -/

theorem resumed_of_none {r : Review π} (hm : r.menu = none) (c : Course π) (refused lines : List String) :
    resumed now log r c refused lines = c := by
  simp [resumed, hm]

/-- A reply that chooses nothing is used up, and the menu waits on. -/
theorem resumed_of_refused {r : Review π} {m : Menu} (hm : r.menu = some m) {line : String}
    (hr : Choice.read line m.suggestions.length = none) (c : Course π) (refused rest : List String) :
    resumed now log r c refused (line :: rest) =
      resumed now log r (c.say (m.prompt ++ complaint line)) (refused ++ [line]) rest := by
  simp [resumed, hm, ask, hr, Menu.prompt]

theorem resumed_of_chosen {r : Review π} {m : Menu} (hm : r.menu = some m) {line : String} {choice : Choice}
    (hr : Choice.read line m.suggestions.length = some choice) (c : Course π) (refused rest : List String) :
    resumed now log r c refused (line :: rest) =
      r.queue.foldl (file now log) (m.later.foldl (visit now log m.file m.context)
        (settle now log (c.say m.prompt) ⟨{ m with later := [] }, refused, some (line, choice)⟩ rest)) := by
  simp [resumed, hm, ask, hr, Menu.prompt]

omit [NameSource π] in
/-- A review that is broken off at its menu is at its end, as the course is. -/
theorem ends_finish {r : Review π} {said : String} {c : Course π} (h : Follows log r said c) {m : Menu}
    (hm : r.menu = some m) {v : Visit} (hv : v.selects = false) (rest : List String) :
    Ends { output := m.prompt ++ (finish r).1, review := (finish r).2, unread := rest.map Utf8.encode } said
      { c.say m.prompt with unread := rest, visits := c.visits ++ [v], finished := true } := by
  refine ⟨rfl, rfl, h.advisor, h.fileSystem, ?_, rfl, ?_⟩
  · simp [finish, h.stats, Course.stats, hv]
  · simp [finish, h.said, h.stats, hm, Course.stats, hv, String.append_assoc]

/-- A conversation ends as the course of what was left to do. -/
theorem converse_ends (now : Timestamp) {r : Review π} {said : String} {c : Course π} (h : Follows log r said c)
    (refused : List String) {lines : List String} (hu : r.menu = none → c.unread = lines) :
    Ends (converse now r (lines.map Utf8.encode)) said (resumed now log r c refused lines) := by
  -- along the lines: each leaves a review that follows a course with as much left to do
  induction lines generalizing r said c refused with
  | nil =>
    cases hm : r.menu with
    | none =>
      rw [resumed_of_none hm, ← hu hm]
      exact ends_of_none h hm
    | some m =>
      simp only [resumed, hm, ask]
      rw [resumed_of_unchosen rfl, List.map_nil, converse_nil hm]
      exact ends_finish h hm rfl []
  | cons line rest ih =>
    cases hm : r.menu with
    | none =>
      rw [resumed_of_none hm, ← hu hm]
      exact ends_of_none h hm
    | some m =>
      rw [List.map_cons, converse_of_cons hm]
      cases hr : Choice.read line m.suggestions.length with
      | none =>
        have ht : reply now r m line = (complaint line, r) := by
          simp only [reply, hr]
          rfl
        have hf : Follows log r (said ++ (m.prompt ++ complaint line)) (c.say (m.prompt ++ complaint line)) :=
          ⟨h.toAgrees.say _, by simp [h.said, hm], h.menu⟩
        rw [ht, resumed_of_refused hm hr]
        exact (ih hf (refused ++ [line]) (by simp [hm])).prepend
      | some choice =>
        rw [resumed_of_chosen hm hr]
        cases hs : m.chosen choice with
        | none =>
          obtain rfl := quit_of_unchosen hr hs
          have ht : reply now r m line = finish r := by simp only [reply, hr, hs]
          rw [ht, resumed_of_unchosen rfl, converse_of_none rfl, String.append_empty]
          exact ends_finish h hm rfl rest
        | some selected =>
          have ht : reply now r m line = take now r m selected := by simp only [reply, hr, hs]
          obtain ⟨c₁, hf, hu₁, he⟩ :=
            follows_take now (h.toAgrees.say m.prompt) (h.menu m hm) hs refused line rest
          have hf' : Follows log (take now r m selected).2 (said ++ (m.prompt ++ (take now r m selected).1)) c₁ := by
            refine ⟨hf.toAgrees, ?_, hf.menu⟩
            rw [← hf.said, h.said, hm]
            simp [String.append_assoc]
          rw [ht, he]
          exact (ih hf' [] fun _ => hu₁).prepend

/-- A review of some files, with the lines of an input, ends as its course. -/
theorem start_ends (advisor : Advisor π) (fileSystem : FileSystem) (log : DecisionLog) (files : List Path)
    (now : Timestamp) (lines : List String) :
    Ends (converse now (start advisor fileSystem log files).2 (lines.map Utf8.encode))
      (start advisor fileSystem log files).1 (Course.ofFiles now log advisor fileSystem files lines) := by
  have ha : Agrees log { advisor, fileSystem, log, queue := files } (initial advisor fileSystem files lines) :=
    ⟨rfl, rfl, rfl, rfl, rfl⟩
  obtain ⟨c₁, hf, hu, he⟩ := follows_openNext now ha files
  have hend := converse_ends now hf [] fun _ => hu
  rw [← he] at hend
  exact hend

end NameAdvisor.Review
