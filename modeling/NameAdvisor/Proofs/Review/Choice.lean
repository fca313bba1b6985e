import NameAdvisor.Provider.Scripted
import NameAdvisor.Review.Session
import NameAdvisor.Proofs.Text.Numeral

/-!
# What a reply to a menu chooses

A reply ends the review, keeps the present name, or selects a suggestion by the number that the menu shows before it.
Any other text chooses nothing, and so does a number that the menu does not show, however long it is.
-/

namespace NameAdvisor

namespace Text

theorem toLower_eq_q_iff {c : Char} : c.toLower = 'q' ↔ c = 'q' ∨ c = 'Q' := by
  constructor
  · intro h
    unfold Char.toLower at h
    split at h
    · have hval : c.val + ('a'.val - 'A'.val) = 'q'.val := congrArg Char.val h
      exact .inr (Char.ext (by grind))
    · exact .inl h
  · rintro (rfl | rfl) <;> rfl

theorem eqIgnoringAsciiCase_q_iff {s : String} : eqIgnoringAsciiCase s "q" = true ↔ s = "q" ∨ s = "Q" := by
  have hchars : eqIgnoringAsciiCase s "q" = true ↔ ∃ c, s.toList = [c] ∧ c.toLower = 'q' := by
    rw [eqIgnoringAsciiCase, beq_iff_eq]
    exact List.map_eq_singleton_iff
  rw [hchars]
  constructor
  · rintro ⟨c, hs, hc⟩
    rw [← String.toList_inj, ← String.toList_inj, hs]
    obtain rfl | rfl := toLower_eq_q_iff.mp hc
    · exact .inl rfl
    · exact .inr rfl
  · rintro (rfl | rfl)
    · exact ⟨'q', rfl, rfl⟩
    · exact ⟨'Q', rfl, rfl⟩

end Text

namespace Numeral

/-- A text writes one number at most. -/
theorem Writes.eq {s : String} {m n : Nat} (hm : Writes s m) (hn : Writes s n) : m = n :=
  Option.some.inj ((read_eq_some_iff.mpr hm).symm.trans (read_eq_some_iff.mpr hn))

end Numeral

namespace Choice

open Numeral

variable {reply : String} {count n : Nat}

theorem not_quits_of_writes (h : Writes reply n) : Text.eqIgnoringAsciiCase reply "q" = false := by
  have hread := read_eq_some_iff.mpr h
  rw [← Bool.not_eq_true, Text.eqIgnoringAsciiCase_q_iff]
  rintro (rfl | rfl) <;> cases hread

/-- Zero keeps the name, and a number that the menu shows selects. -/
theorem read_of_writes (hcount : count < wordLimit) (h : Writes (Text.trim reply) n) :
    read reply count = match n with
      | 0 => some keep
      | i + 1 => if i < count then some (select i) else none := by
  rw [read, not_quits_of_writes h]
  by_cases hn : n < wordLimit
  · rw [readBelow_eq_some_iff.mpr ⟨h, hn⟩]
    cases n <;> rfl
  · -- a number that is no word is not shown either
    have hnone : readBelow wordLimit (Text.trim reply) = none := by
      rw [Option.eq_none_iff_forall_ne_some]
      intro m hm
      obtain ⟨hw, hlt⟩ := readBelow_eq_some_iff.mp hm
      exact hn (hw.eq h ▸ hlt)
    obtain ⟨i, rfl⟩ := Nat.exists_eq_succ_of_ne_zero (by omega : n ≠ 0)
    rw [hnone]
    exact (if_neg (by omega)).symm

theorem read_of_not_writes (h : ∀ n, ¬ Writes (Text.trim reply) n) :
    read reply count = if Text.trim reply = "q" ∨ Text.trim reply = "Q" then some quit else none := by
  have hnone : readBelow wordLimit (Text.trim reply) = none := by
    rw [Option.eq_none_iff_forall_ne_some]
    intro n hn
    exact h n (readBelow_eq_some_iff.mp hn).1
  simp only [read, Text.eqIgnoringAsciiCase_q_iff, hnone]

/-- What a reply chooses, by what it writes. -/
theorem read_iff (hcount : count < wordLimit) (reply : String) :
    (read reply count = some quit ↔ Text.trim reply = "q" ∨ Text.trim reply = "Q") ∧
    (read reply count = some keep ↔ Writes (Text.trim reply) 0) ∧
    (∀ i, read reply count = some (select i) ↔ i < count ∧ Writes (Text.trim reply) (i + 1)) ∧
    (read reply count = none ↔ Text.trim reply ≠ "q" ∧ Text.trim reply ≠ "Q" ∧
      ∀ n, Writes (Text.trim reply) n → count < n) := by
  by_cases h : ∃ n, Writes (Text.trim reply) n
  · obtain ⟨n, hn⟩ := h
    have hq : ¬ (Text.trim reply = "q" ∨ Text.trim reply = "Q") := by
      simp [← Text.eqIgnoringAsciiCase_q_iff, not_quits_of_writes hn]
    have hwrites : ∀ m, Writes (Text.trim reply) m ↔ m = n := fun m => ⟨fun hm => hm.eq hn, fun he => he ▸ hn⟩
    rw [read_of_writes hcount hn]
    cases n <;> grind
  · have hnot : ∀ n, ¬ Writes (Text.trim reply) n := not_exists.mp h
    rw [read_of_not_writes hnot]
    grind

end Choice

namespace Menu

/-- Every name of a list that is shown stands on a line of its own after its number. -/
theorem exists_numbered_eq {names : List String} {n : Nat} (hn : n < names.length) (start : Nat) :
    ∃ before after, numbered start names =
      before ++ ("  " ++ toString (start + n) ++ ") " ++ names[n] ++ "\n") ++ after := by
  induction names generalizing n start with
  | nil => simp at hn
  | cons name names ih =>
    cases n with
    | zero => exact ⟨"", numbered (start + 1) names, by simp [numbered]⟩
    | succ n =>
      obtain ⟨before, after, hrest⟩ := ih (Nat.lt_of_succ_lt_succ hn) (start + 1)
      refine ⟨"  " ++ toString start ++ ") " ++ name ++ "\n" ++ before, after, ?_⟩
      rw [numbered, hrest]
      simp [String.append_assoc, Nat.add_assoc, Nat.add_comm 1 n]

theorem exists_text_eq (m : Menu) {n : Nat} (hn : n < m.suggestions.length) :
    ∃ before after, m.text = before ++ ("  " ++ toString (n + 1) ++ ") " ++ m.suggestions[n] ++ "\n") ++ after := by
  obtain ⟨before, after, hnumbered⟩ := exists_numbered_eq hn 1
  rw [text, hnumbered, Nat.add_comm 1 n, ← String.append_assoc, ← String.append_assoc]
  exact ⟨_, after, rfl⟩

end Menu

namespace Review

open Choice Numeral

variable {π : Type} [NameSource π]

/-- Blanks at its ends aside, a reply of `q` or `Q` ends the review, one that writes zero keeps the name, one that
writes the number of a suggestion selects it, and no other reply chooses anything, whatever number it writes.  So a
selected suggestion is always one of those that the menu being asked shows, after just the number that was replied. -/
theorem reply_chooses {count : Nat} (hcount : count < wordLimit) (line : String) :
    (Choice.read line count = some quit ↔ Text.trim line = "q" ∨ Text.trim line = "Q") ∧
    (Choice.read line count = some keep ↔ Writes (Text.trim line) 0) ∧
    (∀ i, Choice.read line count = some (select i) ↔ i < count ∧ Writes (Text.trim line) (i + 1)) ∧
    (Choice.read line count = none ↔ Text.trim line ≠ "q" ∧ Text.trim line ≠ "Q" ∧
      ∀ n, Writes (Text.trim line) n → count < n) ∧
    (∀ (r : Review π) file context i later, ∃ m : Menu,
      (present r file context i later).1 = m.text ∧ (present r file context i later).2.menu = some m) ∧
    ∀ (now : Timestamp) (r : Review π) (m : Menu) (i : Nat),
      Choice.read line m.suggestions.length = some (select i) →
        ∃ hi : i < m.suggestions.length, reply now r m line = take now r m m.suggestions[i] ∧
          ∃ before after,
            m.text = before ++ ("  " ++ toString (i + 1) ++ ") " ++ m.suggestions[i] ++ "\n") ++ after := by
  obtain ⟨hquit, hkeep, hselect, hnone⟩ := read_iff hcount line
  refine ⟨hquit, hkeep, hselect, hnone, fun r file context i later => ⟨_, rfl, rfl⟩, fun now r m i hread => ?_⟩
  have hi : i < m.suggestions.length := lt_of_read_eq_select hread
  refine ⟨hi, ?_, m.exists_text_eq hi⟩
  have hchosen : m.chosen (select i) = some m.suggestions[i] := List.getElem?_eq_getElem hi
  rw [reply, hread]
  simp only [hchosen]

/-- A number with a sign, zeros and wide blanks, and the number that a word of 64 bits would make of one too long. -/
theorem reply_chooses_padded_number :
    let m : Menu := ⟨⟨"a.ts"⟩, {}, { name := "x", kind := .function }, ["alpha", "beta", "gamma"], []⟩
    let r : Review Scripted := { advisor := ⟨.rules, []⟩, fileSystem := {}, log := ⟨[]⟩, queue := [], menu := some m }
    3 < wordLimit ∧ Choice.read "\u2003+002\n" 3 = some (select 1) ∧ Writes (Text.trim "\u2003+002\n") 2 ∧
      Choice.read "18446744073709551617" 3 = none ∧
      (∀ n, Writes (Text.trim "18446744073709551617") n → 3 < n) ∧
      (∃ hi : 1 < m.suggestions.length, reply default r m "\u2003+002\n" = take default r m m.suggestions[1] ∧
        ∃ before after, m.text = before ++ ("  " ++ toString (1 + 1) ++ ") " ++ m.suggestions[1] ++ "\n") ++ after) := by
  intro m r
  have hcount : 3 < wordLimit := by decide
  obtain ⟨-, -, hselect, -, -, hmenu⟩ := @reply_chooses Scripted _ 3 hcount "\u2003+002\n"
  obtain ⟨-, -, -, hnone, -⟩ := @reply_chooses Scripted _ 3 hcount "18446744073709551617"
  have hread : Choice.read "\u2003+002\n" 3 = some (select 1) := by decide
  have hlong : Choice.read "18446744073709551617" 3 = none := by decide
  exact ⟨hcount, hread, ((hselect 1).mp hread).2, hlong, (hnone.mp hlong).2.2, hmenu default r m 1 hread⟩

end Review

end NameAdvisor
