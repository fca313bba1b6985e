import NameAdvisor.Text.Search
import NameAdvisor.Text.Blank

/-!
# The pieces of a text

A text is cut at each occurrence of a character, as lists are, and its pieces are stripped of the blanks at their ends.
-/

namespace NameAdvisor.Text

/-! ## Cutting -/

theorem splitChars_eq_splitOn (sep : Char) (s : List Char) : splitChars sep s = s.splitOn sep := by
  induction s with
  | nil => rfl
  | cons c s ih =>
    rw [splitChars, List.splitOn_cons_eq_if_modifyHead, ih]
    cases hs : s.splitOn sep with
    | nil => exact absurd hs (List.splitOn_ne_nil sep s)
    | cons piece pieces => simp only [beq_iff_eq, List.modifyHead_cons]

/-- No piece holds the character that the text was cut at. -/
theorem notMem_of_mem_splitChars {sep : Char} {s piece : List Char} (h : piece ∈ splitChars sep s) : sep ∉ piece := by
  induction s generalizing piece with
  | nil => simp_all
  | cons c s ih =>
    rw [splitChars] at h
    cases hs : splitChars sep s with
    | nil => exact absurd hs (splitChars_ne_nil sep s)
    | cons first rest => grind

/-! ## Stripping -/

theorem trimChars_subset (s : List Char) : trimChars s ⊆ s := by
  intro c hc
  have hback := (List.dropWhile_sublist _).subset (List.mem_reverse.mp hc)
  exact (List.dropWhile_sublist _).subset (List.mem_reverse.mp hback)

/-- Blanks around a text that holds none are stripped, and nothing else is. -/
theorem trimChars_padded {before s after : List Char} (hb : ∀ c ∈ before, isBlank c = true)
    (hs : ∀ c ∈ s, isBlank c = false) (ha : ∀ c ∈ after, isBlank c = true) : trimChars (before ++ s ++ after) = s := by
  have hstart : ∀ {t : List Char}, (∀ c ∈ t, isBlank c = false) → t.dropWhile isBlank = t := by
    intro t ht
    cases t with
    | nil => rfl
    | cons c t => simp [ht c List.mem_cons_self]
  by_cases he : s = []
  · subst he
    refine trimChars_of_all_blank fun c hc => ?_
    grind
  · have hfront : (before ++ s ++ after).dropWhile isBlank = s ++ after := by
      rw [List.append_assoc, List.dropWhile_append_of_pos hb, List.dropWhile_append]
      simp [hstart hs, he]
    have hback : (after.reverse ++ s.reverse).dropWhile isBlank = s.reverse := by
      rw [List.dropWhile_append_of_pos (by simpa using ha)]
      exact hstart (by simpa using hs)
    rw [trimChars, hfront, List.reverse_append, hback, List.reverse_reverse]

/-- Where a text starts with something that has no blank at either end, only what follows that is stripped. -/
theorem trimChars_append {x : List Char} (hne : x ≠ []) (hhead : ∀ c ∈ x.head?, isBlank c = false)
    (hlast : ∀ c ∈ x.getLast?, isBlank c = false) (t : List Char) :
    trimChars (x ++ t) = x ++ (t.reverse.dropWhile isBlank).reverse := by
  have hkept : ∀ y : List Char, (∀ c ∈ y.head?, isBlank c = false) → y.dropWhile isBlank = y := by
    intro y hy
    cases y with
    | nil => rfl
    | cons c y => simp [hy c rfl]
  have hfront : (x ++ t).dropWhile isBlank = x ++ t := by
    apply hkept
    intro c hc
    rw [List.head?_append, List.head?_eq_some_head hne] at hc
    exact hhead c (by rw [List.head?_eq_some_head hne]; exact hc)
  have hback : x.reverse.dropWhile isBlank = x.reverse := by
    apply hkept
    rwa [List.head?_reverse]
  rw [trimChars, hfront, List.reverse_append, List.dropWhile_append, hback]
  split
  · next h => simp [List.isEmpty_iff.mp h]
  · simp

/-- A text is what remains of it when it is stripped, between two runs of blanks. -/
theorem exists_eq_trimChars (s : List Char) :
    ∃ before after, (∀ c ∈ before, isBlank c = true) ∧ (∀ c ∈ after, isBlank c = true) ∧
      s = before ++ (trimChars s ++ after) ∧
      (∀ c ∈ (trimChars s).head?, isBlank c = false) ∧ ∀ c ∈ (trimChars s).getLast?, isBlank c = false := by
  have hall : ∀ t : List Char, ∀ c ∈ t.takeWhile isBlank, isBlank c = true :=
    fun t => List.all_eq_true.mp List.all_takeWhile
  have hstart : ∀ t : List Char, ∀ c ∈ (t.dropWhile isBlank).head?, isBlank c = false := by
    intro t c hc
    simpa [Option.mem_def.mp hc] using List.head?_dropWhile_not isBlank t
  have hfront := List.takeWhile_append_dropWhile (p := isBlank) (l := s)
  have hback : trimChars s ++ ((s.dropWhile isBlank).reverse.takeWhile isBlank).reverse = s.dropWhile isBlank := by
    rw [trimChars, ← List.reverse_append, List.takeWhile_append_dropWhile, List.reverse_reverse]
  refine ⟨s.takeWhile isBlank, ((s.dropWhile isBlank).reverse.takeWhile isBlank).reverse, hall s, ?_, ?_, ?_, ?_⟩
  · intro c hc
    exact hall _ c (List.mem_reverse.mp hc)
  · rw [hback, hfront]
  · intro c hc
    refine hstart s c ?_
    rw [← hback, List.head?_append, Option.mem_def.mp hc]
    rfl
  · intro c hc
    rw [trimChars, List.getLast?_reverse] at hc
    exact hstart _ c hc

end NameAdvisor.Text
