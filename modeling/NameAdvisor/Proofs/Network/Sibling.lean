import NameAdvisor.Proofs.Network.Path

/-!
# Addresses side by side

Two texts that differ in the last name of a path only are both addresses or both none.  They name the same server,
and if nothing before the names starts a query or a fragment, the rest of the path is the same too.

## Main definitions

* `Url.IsName`: segments that are sent as they are and name something.
-/

namespace NameAdvisor.Url

/-! ## Names at the end of a path -/

/-- The segment is sent as it is, and it names something. -/
structure IsName (name : List Char) : Prop where
  ne_nil : name ≠ []
  chars : ∀ c ∈ name, encodedInPath c = false ∧ isSlash c = false ∧ c ≠ ':'
  not_isPoint : ¬ IsPoint name

theorem not_isControlOrSpace_of_not_encoded {c : Char} (h : encodedInPath c = false) :
    isControlOrSpace c = false := by
  simp only [encodedInPath, Bool.or_eq_false_iff] at h
  exact h.1.1

theorem staysInPath_of_not_encoded {c : Char} (h : encodedInPath c = false) (hs : isSlash c = false) :
    StaysInPath c := by
  intro hm
  simp only [List.mem_cons, List.not_mem_nil, or_false] at hm
  rcases hm with rfl | rfl | rfl | rfl | rfl | rfl <;> revert h hs <;> decide

namespace IsName

variable {name parent : List Char}

theorem staysInPath (h : IsName name) : ∀ c ∈ name, StaysInPath c := fun c hc =>
  staysInPath_of_not_encoded (h.chars c hc).1 (h.chars c hc).2.1

theorem segments_eq (h : IsName name) : segments name = [name] :=
  segments_of_notSlash fun c hc => (h.chars c hc).2.1

theorem encodeWith_eq (h : IsName name) : encodeWith encodedInPath name = name := by
  have hchars := h.chars
  clear h
  induction name with
  | nil => rfl
  | cons c name ih =>
    obtain ⟨hc, hname⟩ := List.forall_mem_cons.mp hchars
    have hcons : encodeWith encodedInPath (c :: name) =
        (if encodedInPath c then percentEncode c else [c]) ++ encodeWith encodedInPath name := List.flatMap_cons
    rw [hcons, ih hname, if_neg (by simp [hc.1]), List.singleton_append]

/-- A name after others does not end in a control character. -/
theorem getLast?_append (h : IsName name) (s : List Char) :
    ∀ c, (s ++ name).getLast? = some c → isControlOrSpace c = false := by
  intro c hc
  rw [List.getLast?_append_of_ne_nil s h.ne_nil] at hc
  exact not_isControlOrSpace_of_not_encoded (h.chars c (List.mem_of_getLast? hc)).1

theorem exists_not_isSlash (h : IsName name) (s : List Char) : ((s ++ '/' :: name).dropWhile isSlash).isEmpty = false := by
  obtain ⟨c, rest, hc⟩ := List.exists_cons_of_ne_nil h.ne_nil
  have hns := (h.chars c (hc ▸ List.mem_cons_self)).2.1
  rw [Bool.eq_false_iff, ne_eq, List.isEmpty_iff, List.dropWhile_eq_nil_iff]
  intro hall
  simp [hall c (by simp [hc])] at hns

end IsName

/-- What comes before a path either has no scheme, whatever the path, or is read as a scheme and what follows it. -/
theorem exists_counted_append (s : List Char) :
    (∀ path, ':' ∉ path → ':' ∉ counted (s ++ '/' :: path)) ∨
      ∃ scheme rest, ':' ∉ scheme ∧ (∀ c ∈ rest, c ∈ s) ∧
        ∀ path, (∀ c ∈ path, StaysInPath c) → (∀ c, path.getLast? = some c → isControlOrSpace c = false) →
          counted (s ++ '/' :: path) = scheme ++ ':' :: (rest ++ '/' :: path) := by
  by_cases hcolon : ':' ∈ unbroken (s.dropWhile isControlOrSpace)
  · right
    have hmem : ∀ c ∈ unbroken (s.dropWhile isControlOrSpace), c ∈ s := fun c hc =>
      (List.dropWhile_sublist _).subset (List.mem_filter.mp hc).1
    obtain ⟨scheme, rest, hs, hscheme⟩ := List.eq_append_cons_of_mem hcolon
    rw [hs] at hmem
    refine ⟨scheme, rest, hscheme, fun c hc => hmem c (by simp [hc]), fun path hp hl => ?_⟩
    rw [counted_append_path ⟨':', hmem ':' (by simp), rfl⟩ hp hl, hs, List.append_assoc, List.cons_append]
  · left
    intro path hpath hm
    have hs : ':' ∈ s := by simpa [hpath] using mem_of_mem_counted hm
    rw [← List.takeWhile_append_dropWhile (p := isControlOrSpace) (l := s)] at hs
    obtain hs | hs := List.mem_append.mp hs
    · exact absurd (List.all_eq_true.mp List.all_takeWhile _ hs) (by decide)
    · exact hcolon (List.mem_filter.mpr ⟨hs, by decide⟩)

section Siblings

variable {parent : List Char} (hparent : IsName parent)

include hparent

/-- What comes before the last name of a path either has no scheme, whatever the name, or is read with every name as a
scheme, an authority and the path so far. -/
theorem exists_counted_siblings (s : List Char) :
    (∀ name, IsName name → ':' ∉ counted (s ++ '/' :: (parent ++ '/' :: name))) ∨
      ∃ scheme rest, ':' ∉ scheme ∧ (rest.dropWhile isSlash).isEmpty = false ∧
        ((∀ c ∈ s, c ≠ '#' ∧ c ≠ '?') → ∀ c ∈ rest, c ≠ '#' ∧ c ≠ '?') ∧
        ∀ name, IsName name → counted (s ++ '/' :: (parent ++ '/' :: name)) = scheme ++ ':' :: (rest ++ '/' :: name) := by
  obtain hnone | ⟨scheme, rest, hc, hrest, hcounted⟩ := exists_counted_append s
  · refine .inl fun name hname => hnone _ fun hm => ?_
    obtain hm | hm := List.mem_append.mp hm
    · exact (hparent.chars _ hm).2.2 rfl
    · exact (hname.chars _ ((List.mem_cons.mp hm).resolve_left (by decide))).2.2 rfl
  · refine .inr ⟨scheme, rest ++ '/' :: parent, hc, hparent.exists_not_isSlash rest, fun hplain => ?_, fun name hname => ?_⟩
    · have hpath : ∀ c ∈ '/' :: parent, c ≠ '#' ∧ c ≠ '?' :=
        List.forall_mem_cons.mpr ⟨by decide, fun c hc => (hparent.staysInPath c hc).ne⟩
      exact List.forall_mem_append.mpr ⟨fun c hc => hplain c (hrest c hc), hpath⟩
    · have hend := hname.getLast?_append (parent ++ ['/'])
      rw [List.append_assoc, List.singleton_append] at hend
      have hstays : ∀ c ∈ parent ++ '/' :: name, StaysInPath c :=
        List.forall_mem_append.mpr ⟨hparent.staysInPath, List.forall_mem_cons.mpr ⟨by decide, hname.staysInPath⟩⟩
      rw [hcounted _ hstays hend, List.append_assoc, List.cons_append]

/-- Texts that differ in the last name of a path name the same server, and differ in the last name of their paths only
if nothing before the names starts a query or a fragment. -/
theorem exists_sibling {s name name' : List Char} (hname : IsName name) (hname' : IsName name') {text text' : String}
    (htext : text.toList = s ++ '/' :: (parent ++ '/' :: name))
    (htext' : text'.toList = s ++ '/' :: (parent ++ '/' :: name')) {url : Url} (hurl : parse? text = some url) :
    ∃ url', parse? text' = some url' ∧ url'.server = url.server ∧
      ((∀ c ∈ s, c ≠ '#' ∧ c ≠ '?') → ∃ front, url.path = String.ofList (front ++ '/' :: name) ∧
        url' = { url with path := String.ofList (front ++ '/' :: name') }) := by
  obtain hnone | ⟨scheme, rest, hc, hne, hplain, hcounted⟩ := exists_counted_siblings hparent s
  · have hcolon := (isSome_parse?_iff.mp (Option.isSome_iff_exists.mpr ⟨url, hurl⟩)).colon_mem
    rw [htext] at hcolon
    exact absurd hcolon (hnone name hname)
  have hread : counted text.toList = scheme ++ ':' :: (rest ++ '/' :: name) := by rw [htext, hcounted name hname]
  have hread' : counted text'.toList = scheme ++ ':' :: (rest ++ '/' :: name') := by rw [htext', hcounted name' hname']
  have hserver := map_server_parse? hread hc
  have hserver' := map_server_parse? hread' hc
  rw [authority_append_path hne] at hserver hserver'
  have hsame := hserver'.trans hserver.symm
  rw [hurl, Option.map_some] at hsame hserver
  obtain ⟨url', hurl', hequal⟩ := Option.map_eq_some_iff.mp hsame
  refine ⟨url', hurl', hequal, fun hs => ?_⟩
  obtain ⟨hw, hauthority⟩ := Option.ite_none_right_eq_some.mp hserver.symm
  obtain ⟨asked, ha, -⟩ := Option.map_eq_some_iff.mp hauthority
  obtain ⟨front, hfront⟩ := exists_parse?_append_path hc hw hne ha (hplain hs)
  have hsegments : ∀ last, IsName last → ∀ segment ∈ segments last, ¬ IsPoint segment := by
    intro last hlast
    rw [hlast.segments_eq]
    exact List.forall_mem_singleton.mpr hlast.not_isPoint
  rw [hfront text name hread hname.staysInPath (hsegments name hname), hname.encodeWith_eq] at hurl
  rw [hfront text' name' hread' hname'.staysInPath (hsegments name' hname'), hname'.encodeWith_eq] at hurl'
  cases hurl
  cases hurl'
  exact ⟨front, rfl, rfl⟩

end Siblings

end NameAdvisor.Url
