import NameAdvisor.Network.Url
import Mathlib.Data.List.Basic
import Mathlib.Data.List.TakeWhile

/-!
# Addresses with a path after them

Whether a text writes an address of the web depends on its scheme and its authority only, and so does the server that it
names, so that a path may be put after a base address, whatever slashes are taken from the end of it.

## Main definitions

* `Url.counted`: the characters of a text that count.
* `Url.Names`: characters that name a scheme and an authority of the web.
* `Url.server`: the part of an address that says where a request goes.
* `Url.IsBase`: texts that a path may be put after.
-/

namespace NameAdvisor.Url

/-- The characters without line breaks and tabs. -/
def unbroken (s : List Char) : List Char :=
  s.filter fun c => c ≠ '\t' && c ≠ '\n' && c ≠ '\r'

/-- The characters of a text that count: none of the controls and blanks at its ends, and no line breaks or tabs. -/
def counted (s : List Char) : List Char :=
  unbroken (((s.dropWhile isControlOrSpace).reverse.dropWhile isControlOrSpace).reverse)

/-- Whether a character ends an authority. -/
def endsAuthority (c : Char) : Bool :=
  isSlash c || c == '?' || c == '#'

/-- The authority in what follows a scheme. -/
def authority (s : List Char) : List Char :=
  (s.dropWhile isSlash).takeWhile (!endsAuthority ·)

/-- Whether the characters are the name of a scheme of the web. -/
def isScheme (s : List Char) : Bool :=
  s.map Char.toLower = ['h', 't', 't', 'p'] || s.map Char.toLower = ['h', 't', 't', 'p', 's']

def isSecure (s : List Char) : Bool :=
  s.map Char.toLower = ['h', 't', 't', 'p', 's']

/-- The characters name a scheme of the web and an authority. -/
inductive Names : List Char → Prop
  | intro {scheme rest : List Char} (hc : ':' ∉ scheme) (hw : isScheme scheme = true)
      (ha : (authorityOf (isSecure scheme) (authority rest)).isSome = true) : Names (scheme ++ ':' :: rest)

theorem Names.colon_mem {s : List Char} (h : Names s) : ':' ∈ s := by
  cases h
  simp

theorem takeWhile_ne_append {scheme : List Char} (h : ':' ∉ scheme) (rest : List Char) :
    (scheme ++ ':' :: rest).takeWhile (· ≠ ':') = scheme := by
  rw [List.takeWhile_append_of_pos fun c hc => by simpa using ne_of_mem_of_not_mem hc h]
  simp

theorem dropWhile_ne_append {scheme : List Char} (h : ':' ∉ scheme) (rest : List Char) :
    (scheme ++ ':' :: rest).dropWhile (· ≠ ':') = ':' :: rest := by
  rw [List.dropWhile_append_of_pos fun c hc => by simpa using ne_of_mem_of_not_mem hc h]
  simp

theorem names_append_iff {scheme : List Char} (h : ':' ∉ scheme) (rest : List Char) :
    Names (scheme ++ ':' :: rest) ↔
      isScheme scheme = true ∧ (authorityOf (isSecure scheme) (authority rest)).isSome = true := by
  constructor
  · generalize hs : scheme ++ ':' :: rest = s
    rintro ⟨hc, hw, ha⟩
    have hscheme := congrArg (List.takeWhile (· ≠ ':')) hs
    have hrest := congrArg (List.dropWhile (· ≠ ':')) hs
    rw [takeWhile_ne_append h, takeWhile_ne_append hc] at hscheme
    rw [dropWhile_ne_append h, dropWhile_ne_append hc] at hrest
    cases hscheme
    cases hrest
    exact ⟨hw, ha⟩
  · rintro ⟨hw, ha⟩
    exact .intro h hw ha

/-- Where a request to the address goes: whether it is encrypted, which server is asked, and as whom. -/
def server (u : Url) : Bool × Authority :=
  (u.secure, u.toAuthority)

/-- The server is told by the scheme and the authority. -/
theorem map_server_parse? {text : String} {scheme rest : List Char} (hs : counted text.toList = scheme ++ ':' :: rest)
    (hc : ':' ∉ scheme) :
    (parse? text).map server =
      if isScheme scheme then (authorityOf (isSecure scheme) (authority rest)).map (isSecure scheme, ·) else none := by
  obtain ⟨s, hs'⟩ : ∃ s, s = counted text.toList := ⟨_, rfl⟩
  rw [← hs'] at hs
  unfold counted unbroken at hs'
  unfold parse?
  simp only [← hs']
  rw [hs, takeWhile_ne_append hc, dropWhile_ne_append hc, if_neg (by simp)]
  by_cases hw : isScheme scheme = true
  · rw [if_neg (by simpa [isScheme, not_and_or, or_iff_not_imp_left] using hw), if_pos hw]
    split
    · next h =>
      have ha : authorityOf (isSecure scheme) (authority rest) = none := h
      rw [ha]
      rfl
    · next asked h =>
      have ha : authorityOf (isSecure scheme) (authority rest) = some asked := h
      rw [ha]
      rfl
  · rw [if_pos (by simpa [isScheme] using hw), if_neg hw]
    rfl

/-- The authority in an address is the one that its text writes. -/
theorem authorityOf_of_parse? {text : String} {url : Url} (hurl : parse? text = some url) {scheme rest : List Char}
    (hs : counted text.toList = scheme ++ ':' :: rest) (hc : ':' ∉ scheme) :
    authorityOf (isSecure scheme) (authority rest) = some url.toAuthority := by
  have hserver := map_server_parse? hs hc
  rw [hurl, Option.map_some] at hserver
  obtain ⟨-, hserver⟩ := Option.ite_none_right_eq_some.mp hserver.symm
  obtain ⟨asked, ha, hsame⟩ := Option.map_eq_some_iff.mp hserver
  rw [ha, (Prod.mk.inj hsame).2]

/-- A text writes an address of the web exactly if what counts of it names a scheme and an authority. -/
theorem isSome_parse?_iff {text : String} : (parse? text).isSome = true ↔ Names (counted text.toList) := by
  by_cases hc : ':' ∈ counted text.toList
  · obtain ⟨scheme, rest, hs, hscheme⟩ := List.eq_append_cons_of_mem hc
    have hserver := congrArg Option.isSome (map_server_parse? hs hscheme)
    rw [Option.isSome_map] at hserver
    rw [hs, names_append_iff hscheme, hserver]
    split
    · next hw => rw [Option.isSome_map, and_iff_right hw]
    · next hw => simp [hw]
  · obtain ⟨s, hs⟩ : ∃ s, s = counted text.toList := ⟨_, rfl⟩
    rw [← hs] at hc ⊢
    unfold counted unbroken at hs
    unfold parse?
    simp only [← hs]
    have hall : s.all (· ≠ ':') = true := by
      simpa using fun c hm => ne_of_mem_of_not_mem hm hc
    rw [if_pos hall]
    exact iff_of_false (by simp) fun h => hc h.colon_mem

theorem mem_of_mem_counted {c : Char} {s : List Char} (h : c ∈ counted s) : c ∈ s := by
  have hm := (List.mem_filter.mp h).1
  rw [List.mem_reverse] at hm
  exact (List.dropWhile_sublist _).subset (List.mem_reverse.mp ((List.dropWhile_sublist _).subset hm))

/-! ## Credentials -/

theorem userOf_of_notMem {s : List Char} (h : '@' ∉ s) : userOf s = [] := by
  have hnone : s.reverse.dropWhile (· ≠ '@') = [] :=
    List.dropWhile_eq_nil_iff.mpr fun c hc => by simpa using ne_of_mem_of_not_mem (List.mem_reverse.mp hc) h
  rw [userOf, hnone]
  rfl

theorem credentialsOf_nil : credentialsOf [] = none := by
  decide +kernel

/-- An address names nobody unless it has an `@`. -/
theorem credentials_of_notMem {text : String} {url : Url} (hurl : parse? text = some url) (h : '@' ∉ text.toList) :
    url.credentials = none := by
  have hcolon := (isSome_parse?_iff.mp (Option.isSome_iff_exists.mpr ⟨url, hurl⟩)).colon_mem
  obtain ⟨scheme, rest, hs, hc⟩ := List.eq_append_cons_of_mem hcolon
  have hno : '@' ∉ authority rest := by
    intro hm
    have hrest : '@' ∈ rest := (List.dropWhile_sublist _).subset ((List.takeWhile_sublist _).subset hm)
    exact h (mem_of_mem_counted (hs ▸ List.mem_append_right _ (List.mem_cons_of_mem _ hrest)))
  have ha := authorityOf_of_parse? hurl hs hc
  rw [authorityOf, userOf_of_notMem hno, credentialsOf_nil] at ha
  split at ha
  · exact (Authority.mk.inj (Option.some.inj ha)).1.symm
  · cases ha

example : (parse? "http://me%40x:p:1@0x7f.1").map (·.toAuthority) =
    some ⟨some ⟨"me@x", "p:1"⟩, "127.0.0.1", none⟩ := by
  decide +kernel

/-! ## Putting a path after a base -/

theorem authorityOf_nil (secure : Bool) : authorityOf secure [] = none := by
  cases secure <;> rfl

/-- What has an authority with slashes after it has more than slashes without them. -/
theorem dropWhile_isSlash_ne_nil {s slashes : List Char} (hs : ∀ c ∈ slashes, c = '/')
    (h : authority (s ++ slashes) ≠ []) : (s.dropWhile isSlash).isEmpty = false := by
  have hdrop : slashes.dropWhile isSlash = [] := by
    rw [List.dropWhile_eq_nil_iff]
    intro c hc
    rw [hs c hc]
    rfl
  rw [Bool.eq_false_iff]
  intro he
  rw [authority, List.dropWhile_append, if_pos he, hdrop] at h
  exact h rfl

/-- A path after more than slashes does not belong to the authority. -/
theorem authority_append_path {s : List Char} (h : (s.dropWhile isSlash).isEmpty = false) (path : List Char) :
    authority (s ++ '/' :: path) = authority s := by
  have hpath : ('/' :: path).takeWhile (!endsAuthority ·) = [] := rfl
  simp only [authority, List.dropWhile_append, h, Bool.false_eq_true, if_false, List.takeWhile_append, hpath,
    List.append_nil]
  split
  · next hlength => exact ((List.takeWhile_prefix _).eq_of_length hlength).symm
  · rfl

/-- The slashes after a text that has an authority, or a path after it, do not belong to the authority. -/
theorem authority_append {s slashes : List Char} (hs : ∀ c ∈ slashes, c = '/') (h : authority (s ++ slashes) ≠ [])
    (path : List Char) : authority (s ++ '/' :: path) = authority (s ++ slashes) := by
  have hne := dropWhile_isSlash_ne_nil hs h
  rw [authority_append_path hne]
  cases slashes with
  | nil => rw [List.append_nil]
  | cons c rest => rw [hs c List.mem_cons_self, authority_append_path hne]

/-- The slashes at the end of characters that name something come after the scheme, and are not all that does. -/
theorem Names.exists_eq_append {s slashes : List Char} (h : Names (s ++ slashes)) (hs : ∀ c ∈ slashes, c = '/') :
    ∃ scheme rest, s = scheme ++ ':' :: rest ∧ ':' ∉ scheme ∧ isScheme scheme = true ∧
      authority (rest ++ slashes) ≠ [] ∧
      (authorityOf (isSecure scheme) (authority (rest ++ slashes))).isSome = true := by
  have hm : ':' ∈ s := (List.mem_append.mp h.colon_mem).resolve_right fun hm => absurd (hs _ hm) (by decide)
  obtain ⟨scheme, rest, rfl, hc⟩ := List.eq_append_cons_of_mem hm
  rw [List.append_assoc, List.cons_append] at h
  obtain ⟨hw, ha⟩ := (names_append_iff hc (rest ++ slashes)).mp h
  refine ⟨scheme, rest, rfl, hc, hw, fun he => ?_, ha⟩
  rw [he, authorityOf_nil] at ha
  cases ha

/-- Nothing is trimmed from the end of characters whose last one stays. -/
theorem trimEnd_eq_self {s : List Char} (h : ∀ c, s.getLast? = some c → isControlOrSpace c = false) :
    (s.reverse.dropWhile isControlOrSpace).reverse = s := by
  rw [← List.head?_reverse] at h
  cases hr : s.reverse with
  | nil => simpa using hr.symm
  | cons c rest =>
    rw [List.dropWhile_cons_of_neg (by simp [h c (by rw [hr]; rfl)]), ← hr, List.reverse_reverse]

section Trimming

variable {s : List Char} (h : ∃ c ∈ s, isControlOrSpace c = false)

include h

theorem dropWhile_ne_nil : s.dropWhile isControlOrSpace ≠ [] := by
  obtain ⟨c, hc, hn⟩ := h
  rw [ne_eq, List.dropWhile_eq_nil_iff]
  intro hall
  simp [hall c hc] at hn

theorem dropWhile_append_of_mem (t : List Char) :
    (s ++ t).dropWhile isControlOrSpace = s.dropWhile isControlOrSpace ++ t := by
  simp [List.dropWhile_append, dropWhile_ne_nil h]

/-- What follows a slash is trimmed at its end only. -/
theorem exists_counted_append_slash (path : List Char) :
    ∃ rest, counted (s ++ '/' :: path) = unbroken (s.dropWhile isControlOrSpace) ++ '/' :: rest := by
  have htrim : ∀ front : List Char, ∃ rest,
      ((front ++ '/' :: path).reverse.dropWhile isControlOrSpace).reverse = front ++ '/' :: rest := by
    intro front
    have hslash : ('/' :: front.reverse).dropWhile isControlOrSpace = '/' :: front.reverse := rfl
    refine ⟨(path.reverse.dropWhile isControlOrSpace).reverse, ?_⟩
    rw [List.reverse_append, List.reverse_cons, List.append_assoc, List.singleton_append, List.dropWhile_append]
    split
    · next he =>
      rw [List.isEmpty_iff.mp he, hslash]
      simp
    · simp
  obtain ⟨rest, hr⟩ := htrim (s.dropWhile isControlOrSpace)
  refine ⟨unbroken rest, ?_⟩
  rw [counted, dropWhile_append_of_mem h, hr]
  simp [unbroken]

/-- Nothing is trimmed from slashes at the end of a text. -/
theorem counted_append_slashes {slashes : List Char} (hs : ∀ c ∈ slashes, c = '/')
    (hl : ∀ c, (s ++ slashes).getLast? = some c → isControlOrSpace c = false) :
    counted (s ++ slashes) = unbroken (s.dropWhile isControlOrSpace) ++ slashes := by
  have hlast : ∀ c, (s.dropWhile isControlOrSpace ++ slashes).getLast? = some c → isControlOrSpace c = false := by
    intro c hc
    refine hl c ?_
    rw [← List.takeWhile_append_dropWhile (p := isControlOrSpace) (l := s), List.append_assoc,
      List.getLast?_append_of_ne_nil _ (List.append_ne_nil_of_left_ne_nil (dropWhile_ne_nil h) slashes), hc]
  have hkept : unbroken slashes = slashes := by
    refine List.filter_eq_self.mpr fun c hc => ?_
    rw [hs c hc]
    rfl
  rw [counted, dropWhile_append_of_mem h, trimEnd_eq_self hlast, unbroken, List.filter_append, ← unbroken, ← unbroken,
    hkept]

end Trimming

/-- A text that a path may be put after: it is read as an address and does not end in a control character. -/
structure IsBase (text : String) : Prop where
  parses : (parse? text).isSome = true
  last : ∀ c, text.toList.getLast? = some c → isControlOrSpace c = false

theorem IsBase.of_getLast? {text : String} {c : Char} (hp : (parse? text).isSome = true)
    (hl : text.toList.getLast? = some c) (hc : isControlOrSpace c = false) : IsBase text where
  parses := hp
  last c' hc' := by
    rw [hl] at hc'
    exact Option.some.inj hc' ▸ hc

/-- What counts of a base address without the slashes at its end. -/
theorem IsBase.names {text : String} (h : IsBase text) {s slashes : List Char} (ht : text.toList = s ++ slashes)
    (hs : ∀ c ∈ slashes, c = '/') :
    (∃ c ∈ s, isControlOrSpace c = false) ∧
      counted text.toList = unbroken (s.dropWhile isControlOrSpace) ++ slashes ∧
      Names (unbroken (s.dropWhile isControlOrSpace) ++ slashes) := by
  have hnames := isSome_parse?_iff.mp h.parses
  have hcolon : ∃ c ∈ s, isControlOrSpace c = false := by
    refine ⟨':', ?_, rfl⟩
    have hm : ':' ∈ text.toList := mem_of_mem_counted hnames.colon_mem
    rw [ht] at hm
    exact (List.mem_append.mp hm).resolve_right fun hm => absurd (hs _ hm) (by decide)
  have hlast := h.last
  rw [ht] at hlast
  have hread := counted_append_slashes hcolon hs hlast
  rw [← ht] at hread
  exact ⟨hcolon, hread, hread ▸ hnames⟩

/-- A path after a base address makes an address of the same server, whatever slashes the base ended in. -/
theorem IsBase.exists_parse? {text : String} (h : IsBase text) {s slashes : List Char}
    (ht : text.toList = s ++ slashes) (hs : ∀ c ∈ slashes, c = '/') (path : List Char) :
    ∃ base url, parse? text = some base ∧ parse? (String.ofList (s ++ '/' :: path)) = some url ∧
      url.server = base.server := by
  obtain ⟨base, hbase⟩ := Option.isSome_iff_exists.mp h.parses
  obtain ⟨hcolon, hread, hnames⟩ := h.names ht hs
  obtain ⟨rest', hr⟩ := exists_counted_append_slash hcolon path
  obtain ⟨scheme, rest, hfront, hc, -, hne, -⟩ := hnames.exists_eq_append hs
  rw [hfront, List.append_assoc, List.cons_append] at hr hread
  have hserver := map_server_parse? hread hc
  rw [← authority_append hs hne rest', ← map_server_parse? (by rw [String.toList_ofList, hr]) hc, hbase] at hserver
  obtain ⟨url, hurl, hsame⟩ := Option.map_eq_some_iff.mp hserver.symm
  exact ⟨base, url, hbase, hurl, hsame⟩

end NameAdvisor.Url
