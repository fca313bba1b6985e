import NameAdvisor.Proofs.Network.Url
import NameAdvisor.Proofs.Text.Utf8

/-!
# Paths as they are sent

A path that is put after a base address is the end of the path that is sent, segment by segment, as long as nothing in
it starts a query or a fragment and no segment is a step up.  A segment is sent percent-encoded, which whoever receives
it undoes.

## Main definitions

* `Url.IsPoint`: segments that stand for a place instead of a name.
* `Url.StaysInPath`: the characters of paths that start nothing else.
-/

namespace NameAdvisor.Url

/-! ## Percent-encoding -/

theorem encodeWith_append (encoded : Char → Bool) (s t : List Char) :
    encodeWith encoded (s ++ t) = encodeWith encoded s ++ encodeWith encoded t :=
  List.flatMap_append

theorem percentDecode_cons {c : Char} (h : c ≠ '%') (rest : List Char) :
    percentDecode (c :: rest) = String.utf8EncodeChar c ++ percentDecode rest := by
  rw [percentDecode]
  exact fun _ _ _ he => absurd he h

theorem percentDecode_percentByte (b : UInt8) (rest : List Char) :
    percentDecode (percentByte b ++ rest) = b :: percentDecode rest := by
  let digit (n : Nat) : Char := (Nat.digitChar n).toUpper
  have htext : ∀ n < 256, percentByte (UInt8.ofNat n) = ['%', digit (n / 16), digit (n % 16)] := by decide +kernel
  have hdigit : ∀ n < 16, Text.hexDigit? (digit n) = some n := by decide
  have hb := htext b.toNat b.toNat_lt
  rw [UInt8.ofNat_toNat] at hb
  have hhigh := hdigit (b.toNat / 16) (by have := b.toNat_lt; omega)
  have hlow := hdigit (b.toNat % 16) (by omega)
  have hjoin : 16 * (b.toNat / 16) + b.toNat % 16 = b.toNat := by omega
  simp only [hb, List.cons_append, List.nil_append, percentDecode, hhigh, hlow, hjoin, UInt8.ofNat_toNat]

theorem percentDecode_flatMap_percentByte (bytes : List UInt8) (rest : List Char) :
    percentDecode (bytes.flatMap percentByte ++ rest) = bytes ++ percentDecode rest := by
  induction bytes with
  | nil => rfl
  | cons b bytes ih => rw [List.flatMap_cons, List.append_assoc, percentDecode_percentByte, ih, List.cons_append]

/-- Characters that are sent as they are or percent-encoded are received as they were, but for percent signs. -/
theorem percentDecode_encodeWith (encoded : Char → Bool) {s : List Char} (h : '%' ∉ s) :
    percentDecode (encodeWith encoded s) = s.flatMap String.utf8EncodeChar := by
  induction s with
  | nil => rfl
  | cons c s ih =>
    obtain ⟨hc, hs⟩ : '%' ≠ c ∧ '%' ∉ s := by simpa using h
    have hcons : encodeWith encoded (c :: s) =
        (if encoded c then percentEncode c else [c]) ++ encodeWith encoded s := List.flatMap_cons
    rw [hcons, List.flatMap_cons, ← ih hs]
    split
    · rw [percentEncode, Utf8.toList_encode_singleton, percentDecode_flatMap_percentByte]
    · rw [List.singleton_append, percentDecode_cons hc.symm]

/-- The text of a segment is received as it was. -/
theorem decode_percentDecode_encodeWith (encoded : Char → Bool) {s : String} (h : '%' ∉ s.toList) :
    Utf8.decode ⟨(percentDecode (encodeWith encoded s.toList)).toArray⟩ = some s := by
  rw [percentDecode_encodeWith encoded h, ← Utf8.encode_ofList, String.ofList_toList, Utf8.decode_encode]

/-! ## Segments -/

theorem segments_ne_nil (s : List Char) : segments s ≠ [] := by
  cases s with
  | nil => simp [segments]
  | cons c s =>
    rw [segments]
    split
    · split <;> simp
    · simp

theorem segments_append_slash (s t : List Char) : segments (s ++ '/' :: t) = segments s ++ segments t := by
  induction s with
  | nil =>
    obtain ⟨piece, rest, h⟩ := List.exists_cons_of_ne_nil (segments_ne_nil t)
    simp [segments, h, isSlash]
  | cons c s ih =>
    obtain ⟨piece, rest, h⟩ := List.exists_cons_of_ne_nil (segments_ne_nil s)
    rw [List.cons_append, segments, segments, ih, h, List.cons_append]
    simp only
    split <;> rfl

theorem segments_of_notSlash {s : List Char} (h : ∀ c ∈ s, isSlash c = false) : segments s = [s] := by
  induction s with
  | nil => rfl
  | cons c s ih =>
    obtain ⟨hc, hs⟩ := List.forall_mem_cons.mp h
    simp [segments, ih hs, hc]

/-- The segment stands for the place itself or for the one above it. -/
def IsPoint (segment : List Char) : Prop :=
  plainPoints segment = ['.'] ∨ plainPoints segment = ['.', '.']

instance (segment : List Char) : Decidable (IsPoint segment) :=
  inferInstanceAs (Decidable (_ ∨ _))

theorem mem_plainPoints {c : Char} (hc : c ∉ ['.', '%', '2', 'e', 'E']) {s : List Char} (h : c ∈ s) :
    c ∈ plainPoints s := by
  induction s using plainPoints.induct with
  | case1 d rest hd ih =>
    rw [plainPoints, if_pos hd]
    have hd' : d = 'e' ∨ d = 'E' := by simpa using hd
    have hrest : c ∈ rest := by
      simp only [List.mem_cons, not_or] at hc h
      rcases h with rfl | rfl | rfl | h
      · exact absurd rfl hc.2.1
      · exact absurd rfl hc.2.2.1
      · exact absurd hd' (by simp [hc])
      · exact h
    exact List.mem_cons_of_mem _ (ih hrest)
  | case2 d rest hd => rwa [plainPoints, if_neg hd]
  | case3 rest ih =>
    rw [plainPoints]
    obtain rfl | h := List.mem_cons.mp h
    · exact List.mem_cons_self
    · exact List.mem_cons_of_mem _ (ih h)
  | case4 s h₁ h₂ => rwa [plainPoints] <;> assumption

/-- A segment with another character than those of written-out points names something. -/
theorem not_isPoint_of_mem {c : Char} (hc : c ∉ ['.', '%', '2', 'e', 'E']) {s : List Char} (h : c ∈ s) :
    ¬ IsPoint s := by
  have hmem := mem_plainPoints hc h
  have hpoint : c ≠ '.' := fun he => hc (he ▸ List.mem_cons_self)
  rintro (hp | hp)
  · rw [hp] at hmem
    exact hpoint (List.mem_singleton.mp hmem)
  · rw [hp] at hmem
    simp [hpoint] at hmem

theorem normalize_of_not_isPoint {done : List (List Char)} {names : List (List Char)} (hne : names ≠ [])
    (h : ∀ s ∈ names, ¬ IsPoint s) : normalize done names = done.reverse ++ names := by
  induction names generalizing done with
  | nil => exact absurd rfl hne
  | cons s rest ih =>
    obtain ⟨hs, hrest⟩ := List.forall_mem_cons.mp h
    obtain ⟨h₁, h₂⟩ := not_or.mp hs
    cases rest with
    | nil => simp [normalize, h₁, h₂]
    | cons s' rest =>
      rw [normalize, if_neg h₁, if_neg h₂, ih (List.cons_ne_nil _ _) hrest, List.reverse_cons, List.append_assoc,
        List.singleton_append]
      simp

/-- The segments of a path are sent with a slash between each two, as the path is without them. -/
theorem intercalate_segments {s : List Char} (h : '\\' ∉ s) :
    ['/'].intercalate ((segments s).map (encodeWith encodedInPath)) = encodeWith encodedInPath s := by
  induction s with
  | nil => rfl
  | cons c s ih =>
    obtain ⟨hc, hs⟩ : '\\' ≠ c ∧ '\\' ∉ s := by simpa using h
    obtain ⟨piece, rest, hp⟩ := List.exists_cons_of_ne_nil (segments_ne_nil s)
    have hcons : encodeWith encodedInPath (c :: s) =
        (if encodedInPath c then percentEncode c else [c]) ++ encodeWith encodedInPath s := List.flatMap_cons
    have hpiece : encodeWith encodedInPath (c :: piece) =
        (if encodedInPath c then percentEncode c else [c]) ++ encodeWith encodedInPath piece := List.flatMap_cons
    rw [hcons, ← ih hs, segments, hp]
    by_cases hslash : c = '/'
    · subst hslash
      cases rest <;> simp [isSlash, encodedInPath, encodeWith, List.intercalate, List.intersperse]
    · have hns : isSlash c = false := by simp [isSlash, hslash, hc.symm]
      simp only [hns, Bool.false_eq_true, if_false, List.map_cons, hpiece]
      cases rest <;> simp [List.intercalate]

/-- What comes before some names in a path does not depend on them, and changes nothing about them. -/
theorem exists_normalize_append (done before : List (List Char)) :
    ∃ front, ∀ names ≠ [], (∀ s ∈ names, ¬ IsPoint s) → normalize done (before ++ names) = front ++ names := by
  induction before generalizing done with
  | nil => exact ⟨done.reverse, fun names hne h => normalize_of_not_isPoint hne h⟩
  | cons s before ih =>
    let kept := if plainPoints s = ['.'] then done else if plainPoints s = ['.', '.'] then done.drop 1 else s :: done
    obtain ⟨front, hfront⟩ := ih kept
    refine ⟨front, fun names hne h => ?_⟩
    obtain ⟨next, more, hmore⟩ := List.exists_cons_of_ne_nil (List.append_ne_nil_of_right_ne_nil before hne)
    rw [← hfront names hne h, List.cons_append, hmore, normalize, ← hmore]
    · simp only [kept]
      split
      · rfl
      · split <;> rfl
    · simp

theorem exists_intercalate_append {α : Type} (sep : α) (xs : List (List α)) :
    ∃ front, ∀ ys ≠ [], sep :: [sep].intercalate (xs ++ ys) = front ++ sep :: [sep].intercalate ys := by
  induction xs with
  | nil => exact ⟨[], fun ys _ => rfl⟩
  | cons x xs ih =>
    obtain ⟨front, hfront⟩ := ih
    refine ⟨sep :: x ++ front, fun ys hne => ?_⟩
    obtain ⟨y, rest, hy⟩ := List.exists_cons_of_ne_nil (List.append_ne_nil_of_right_ne_nil xs hne)
    rw [List.append_assoc, ← hfront ys hne, List.cons_append, hy]
    simp [List.intercalate, List.intersperse]

/-- The names at the end of a path are sent at the end of it, behind what does not depend on them. -/
theorem exists_pathOf_append {before : List Char} (hb : ∀ c ∈ before.head?, isSlash c = true) :
    ∃ front, ∀ path, (∀ s ∈ segments path, ¬ IsPoint s) → pathOf (before ++ '/' :: path) =
      front ++ '/' :: ['/'].intercalate ((segments path).map (encodeWith encodedInPath)) := by
  obtain ⟨pieces, hpieces⟩ : ∃ pieces, ∀ path, pathOf (before ++ '/' :: path) =
      '/' :: ['/'].intercalate ((normalize [] (pieces ++ segments path)).map (encodeWith encodedInPath)) := by
    cases before with
    | nil => exact ⟨[], fun path => by simp [pathOf, isSlash]⟩
    | cons c before =>
      have hc : isSlash c = true := hb c rfl
      exact ⟨segments before, fun path => by simp [pathOf, hc, segments_append_slash]⟩
  obtain ⟨front, hfront⟩ := exists_normalize_append [] pieces
  obtain ⟨front', hfront'⟩ := exists_intercalate_append '/' (front.map (encodeWith encodedInPath))
  refine ⟨front', fun path h => ?_⟩
  have hne : (segments path).map (encodeWith encodedInPath) ≠ [] := by simpa using segments_ne_nil path
  rw [hpieces, hfront _ (segments_ne_nil path) h, List.map_append, hfront' _ hne]

/-! ## A path after a base -/

/-- What follows the authority in what follows a scheme. -/
def afterAuthority (s : List Char) : List Char :=
  (s.dropWhile isSlash).dropWhile (!endsAuthority ·)

theorem mem_of_mem_afterAuthority {c : Char} {s : List Char} (h : c ∈ afterAuthority s) : c ∈ s :=
  (List.dropWhile_sublist _).subset ((List.dropWhile_sublist _).subset h)

/-- An address with neither a query nor a fragment is read as a path after an authority. -/
theorem parse?_eq {text : String} {scheme rest : List Char} {asked : Authority}
    (hs : counted text.toList = scheme ++ ':' :: rest) (hc : ':' ∉ scheme) (hw : isScheme scheme = true)
    (ha : authorityOf (isSecure scheme) (authority rest) = some asked)
    (hplain : ∀ c ∈ afterAuthority rest, c ≠ '#' ∧ c ≠ '?') :
    parse? text =
      some ⟨asked, isSecure scheme, String.ofList (pathOf (afterAuthority rest)), none⟩ := by
  have hfragment : (afterAuthority rest).takeWhile (· ≠ '#') = afterAuthority rest :=
    List.takeWhile_eq_self_iff.mpr fun c hm => by simpa using (hplain c hm).1
  have hpath : (afterAuthority rest).takeWhile (· ≠ '?') = afterAuthority rest :=
    List.takeWhile_eq_self_iff.mpr fun c hm => by simpa using (hplain c hm).2
  have hquery : (afterAuthority rest).dropWhile (· ≠ '?') = [] :=
    List.dropWhile_eq_nil_iff.mpr fun c hm => by simpa using (hplain c hm).2
  obtain ⟨s, hs'⟩ : ∃ s, s = counted text.toList := ⟨_, rfl⟩
  rw [← hs'] at hs
  unfold counted unbroken at hs'
  unfold parse?
  simp only [← hs']
  rw [hs, takeWhile_ne_append hc, dropWhile_ne_append hc, if_neg (by simp),
    if_neg (by simpa [isScheme, not_and_or, or_iff_not_imp_left] using hw)]
  split
  · next h => exact absurd (h.symm.trans ha) (by simp)
  · next h =>
    obtain rfl := Option.some.inj (h.symm.trans ha)
    refine congrArg some (congrArg₂ (Url.mk _ _) ?_ ?_)
    · exact congrArg (fun s => String.ofList (pathOf s)) ((congrArg (List.takeWhile (· ≠ '?')) hfragment).trans hpath)
    · have hnone := (congrArg (List.dropWhile (· ≠ '?')) hfragment).trans hquery
      split
      · next hsome => exact absurd (hsome.symm.trans hnone) (List.cons_ne_nil _ _)
      · rfl

/-- The character starts neither a query nor a fragment, and is neither left out nor taken for a slash. -/
def StaysInPath (c : Char) : Prop :=
  c ∉ ['?', '#', '\\', '\t', '\n', '\r']

instance (c : Char) : Decidable (StaysInPath c) :=
  inferInstanceAs (Decidable (¬ _))

theorem StaysInPath.ne {c : Char} (h : StaysInPath c) : c ≠ '#' ∧ c ≠ '?' := by
  simp only [StaysInPath, List.mem_cons, not_or] at h
  exact ⟨h.2.1, h.1⟩

theorem unbroken_of_staysInPath {s : List Char} (h : ∀ c ∈ s, StaysInPath c) : unbroken s = s := by
  refine List.filter_eq_self.mpr fun c hc => ?_
  have := h c hc
  simp only [StaysInPath, List.mem_cons, not_or] at this
  simp [this]

/-- All of a path counts. -/
theorem counted_append_path {s : List Char} (h : ∃ c ∈ s, isControlOrSpace c = false) {path : List Char}
    (hp : ∀ c ∈ path, StaysInPath c) (hl : ∀ c, path.getLast? = some c → isControlOrSpace c = false) :
    counted (s ++ '/' :: path) = unbroken (s.dropWhile isControlOrSpace) ++ '/' :: path := by
  have hlast : ∀ c, (s.dropWhile isControlOrSpace ++ '/' :: path).getLast? = some c → isControlOrSpace c = false := by
    intro c hc
    rw [List.getLast?_append_of_ne_nil _ (List.cons_ne_nil _ _), List.getLast?_cons] at hc
    cases hpath : path.getLast? with
    | none =>
      obtain rfl : '/' = c := by simpa [hpath] using hc
      rfl
    | some d =>
      obtain rfl : d = c := by simpa [hpath] using hc
      exact hl d hpath
  have hkept : unbroken ('/' :: path) = '/' :: path :=
    unbroken_of_staysInPath (List.forall_mem_cons.mpr ⟨by decide, hp⟩)
  rw [counted, dropWhile_append_of_mem h, trimEnd_eq_self hlast, unbroken, List.filter_append, ← unbroken, ← unbroken,
    hkept]

/-- A path after more than slashes comes with what is there. -/
theorem afterAuthority_append {s : List Char} (h : (s.dropWhile isSlash).isEmpty = false) (path : List Char) :
    afterAuthority (s ++ '/' :: path) = afterAuthority s ++ '/' :: path := by
  have hpath : ('/' :: path).dropWhile (!endsAuthority ·) = '/' :: path := rfl
  simp only [afterAuthority, List.dropWhile_append, h, Bool.false_eq_true, if_false, hpath]
  split
  · next he => rw [List.isEmpty_iff.mp he, List.nil_append]
  · rfl

/-- What follows an authority starts with a slash unless it is a query or a fragment. -/
theorem isSlash_of_head?_afterAuthority {s : List Char} (h : ∀ c ∈ s, c ≠ '#' ∧ c ≠ '?') :
    ∀ c ∈ (afterAuthority s).head?, isSlash c = true := by
  intro c hc
  have hends : endsAuthority c = true := by
    have := List.head?_dropWhile_not (!endsAuthority ·) (s.dropWhile isSlash)
    rw [← afterAuthority, hc] at this
    simpa using this
  obtain ⟨hf, hq⟩ := h c (mem_of_mem_afterAuthority (List.mem_of_mem_head? hc))
  simpa [endsAuthority, hf, hq] using hends

/-- Whatever path is put after an authority, or after a path after it, it is the end of the path that is sent,
percent-encoded, as long as it takes no step up; the rest of the address does not depend on it. -/
theorem exists_parse?_append_path {scheme rest : List Char} {asked : Authority}
    (hc : ':' ∉ scheme) (hw : isScheme scheme = true) (hne : (rest.dropWhile isSlash).isEmpty = false)
    (ha : authorityOf (isSecure scheme) (authority rest) = some asked)
    (hrest : ∀ c ∈ rest, c ≠ '#' ∧ c ≠ '?') :
    ∃ front, ∀ text path, counted text.toList = scheme ++ ':' :: (rest ++ '/' :: path) →
      (∀ c ∈ path, StaysInPath c) → (∀ name ∈ segments path, ¬ IsPoint name) →
      parse? text = some ⟨asked, isSecure scheme,
        String.ofList (front ++ '/' :: encodeWith encodedInPath path), none⟩ := by
  obtain ⟨front, hfront⟩ := exists_pathOf_append (isSlash_of_head?_afterAuthority hrest)
  refine ⟨front, fun text path htext hp hnames => ?_⟩
  have hafter := afterAuthority_append hne path
  have hplain : ∀ c ∈ afterAuthority (rest ++ '/' :: path), c ≠ '#' ∧ c ≠ '?' := by
    rw [hafter]
    intro c hc
    obtain hc | hc := List.mem_append.mp hc
    · exact hrest c (mem_of_mem_afterAuthority hc)
    · obtain rfl | hc := List.mem_cons.mp hc
      · decide
      · exact (hp c hc).ne
  have hbackslash : '\\' ∉ path := fun hc => absurd (hp _ hc) (by decide)
  rw [parse?_eq htext hc hw (by rw [authority_append_path hne, ha]) hplain, hafter, hfront path hnames,
    intercalate_segments hbackslash]

/-- A path that is put after a base address is the end of the path that is sent, percent-encoded, and there is no query,
as long as neither has a character that starts something else and the path takes no step up. -/
theorem IsBase.exists_path {text : String} (h : IsBase text) {s slashes : List Char} (ht : text.toList = s ++ slashes)
    (hs : ∀ c ∈ slashes, c = '/') (hbase : ∀ c ∈ s, c ≠ '#' ∧ c ≠ '?') {path : List Char}
    (hp : ∀ c ∈ path, StaysInPath c) (hl : ∀ c, path.getLast? = some c → isControlOrSpace c = false)
    (hnames : ∀ name ∈ segments path, ¬ IsPoint name) :
    ∃ url front, parse? (String.ofList (s ++ '/' :: path)) = some url ∧
      url.path = String.ofList (front ++ '/' :: encodeWith encodedInPath path) ∧ url.query = none := by
  obtain ⟨hcolon, -, hread⟩ := h.names ht hs
  have haddress : counted (String.ofList (s ++ '/' :: path)).toList =
      unbroken (s.dropWhile isControlOrSpace) ++ '/' :: path := by
    rw [String.toList_ofList, counted_append_path hcolon hp hl]
  have hfront : ∀ c ∈ unbroken (s.dropWhile isControlOrSpace), c ≠ '#' ∧ c ≠ '?' := fun c hc =>
    hbase c ((List.dropWhile_sublist _).subset (List.mem_filter.mp hc).1)
  generalize unbroken (s.dropWhile isControlOrSpace) = front at hread haddress hfront
  obtain ⟨scheme, rest, rfl, hscheme, hw, hne, ha⟩ := hread.exists_eq_append hs
  rw [List.append_assoc, List.cons_append] at haddress
  have hrest : ∀ c ∈ rest, c ≠ '#' ∧ c ≠ '?' := fun c hc => hfront c (by simp [hc])
  have hslashes := dropWhile_isSlash_ne_nil hs hne
  obtain ⟨asked, hauthority⟩ := Option.isSome_iff_exists.mp ha
  rw [← authority_append hs hne path, authority_append_path hslashes] at hauthority
  obtain ⟨sent, hsent⟩ := exists_parse?_append_path hscheme hw hslashes hauthority hrest
  exact ⟨_, sent, hsent _ path haddress hp hnames, rfl, rfl⟩

end NameAdvisor.Url
