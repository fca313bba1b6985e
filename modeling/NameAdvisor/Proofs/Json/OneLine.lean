import NameAdvisor.Proofs.Json.RoundTrip
import NameAdvisor.Proofs.Text.Lines

/-!
# JSON on one line

The line feeds of a text are escaped where it is written, so that a value without blanks stays on one line.
-/

namespace NameAdvisor.Json

theorem ne_lineFeed_of_mem_escapeChar {c d : Char} (hd : d ∈ escapeChar c) : d ≠ '\n' := by
  rintro rfl
  unfold escapeChar at hd
  split at hd
  · simp at hd
  split at hd
  · simp at hd
  split at hd
  · next hlt =>
    -- the controls: those with an escape of their own, and the others by their number
    split at hd
    iterate 5 exact absurd hd (by decide)
    · rw [fourHex_of_lt _ hlt] at hd
      have hdigit : ∀ n < 16, Nat.digitChar n ≠ '\n' := by decide
      have h₁ := hdigit (c.toNat / 16) (by omega)
      have h₂ := hdigit (c.toNat % 16) (by omega)
      simp [h₁.symm, h₂.symm] at hd
  · next hge =>
    rw [← List.mem_singleton.mp hd] at hge
    exact hge (by decide)

theorem ne_lineFeed_of_mem_stringChars {s : String} {d : Char} (hd : d ∈ stringChars s) : d ≠ '\n' := by
  simp only [stringChars, List.mem_append, List.mem_singleton, List.mem_flatMap] at hd
  obtain (rfl | ⟨c, -, hd⟩) | rfl := hd
  · decide
  · exact ne_lineFeed_of_mem_escapeChar hd
  · decide

theorem ne_lineFeed_of_mem_text {n : Number} (h : n.IsWord) {d : Char} (hd : d ∈ n.text.toList) : d ≠ '\n' := by
  cases n with
  | natural n => exact Text.oneLine_toString n d hd
  | negative n =>
    rw [Number.text, String.toList_append] at hd
    obtain hd | hd := List.mem_append.mp hd
    · rw [List.mem_singleton.mp hd]
      decide
    · exact Text.oneLine_toString (n + 1) d hd
  | double x => cases h

theorem ne_lineFeed_of_mem_compactItems {items : List Json} (h : ∀ j ∈ items, ∀ d ∈ compactChars j, d ≠ '\n') :
    ∀ d ∈ compactItems items, d ≠ '\n' := by
  induction items with
  | nil => exact List.forall_mem_nil _
  | cons j items ih =>
    obtain ⟨hj, hitems⟩ := List.forall_mem_cons.mp h
    cases items with
    | nil => simpa [compactItems] using hj
    | cons j' items =>
      have hcomma : ∀ d ∈ [','], d ≠ '\n' := by simp
      rw [compactItems]
      · exact List.forall_mem_append.mpr ⟨List.forall_mem_append.mpr ⟨hj, hcomma⟩, ih hitems⟩
      · simp

theorem ne_lineFeed_of_mem_compactMembers {members : Members}
    (h : ∀ m ∈ members, ∀ d ∈ compactChars m.2, d ≠ '\n') : ∀ d ∈ compactMembers members, d ≠ '\n' := by
  induction members with
  | nil => exact List.forall_mem_nil _
  | cons m members ih =>
    obtain ⟨key, j⟩ := m
    obtain ⟨hj, hmembers⟩ := List.forall_mem_cons.mp h
    have hkey : ∀ d ∈ stringChars key ++ [':'] ++ compactChars j, d ≠ '\n' :=
      List.forall_mem_append.mpr
        ⟨List.forall_mem_append.mpr ⟨fun _ => ne_lineFeed_of_mem_stringChars, by simp⟩, hj⟩
    cases members with
    | nil => simpa only [compactMembers] using hkey
    | cons m' members =>
      have hcomma : ∀ d ∈ [','], d ≠ '\n' := by simp
      rw [compactMembers]
      · exact List.forall_mem_append.mpr ⟨List.forall_mem_append.mpr ⟨hkey, hcomma⟩, ih hmembers⟩
      · simp

theorem Readable.ne_lineFeed {depth : Nat} {j : Json} (h : Readable depth j) : ∀ d ∈ compactChars j, d ≠ '\n' := by
  induction h with
  | null => simp [compactChars]
  | bool b => cases b <;> simp [compactChars]
  | number h => exact fun d => ne_lineFeed_of_mem_text h
  | string s => exact fun d => ne_lineFeed_of_mem_stringChars
  | array _ ih =>
    have hitems := ne_lineFeed_of_mem_compactItems ih
    rw [compactChars]
    exact List.forall_mem_append.mpr ⟨List.forall_mem_append.mpr ⟨by simp, hitems⟩, by simp⟩
  | object _ ih =>
    have hmembers := ne_lineFeed_of_mem_compactMembers ih
    rw [compactChars]
    exact List.forall_mem_append.mpr ⟨List.forall_mem_append.mpr ⟨by simp, hmembers⟩, by simp⟩

theorem oneLine_compact {depth : Nat} {j : Json} (h : Readable depth j) : Text.OneLine j.compact :=
  Text.within_ofList.mpr h.ne_lineFeed

end NameAdvisor.Json
