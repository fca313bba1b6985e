import NameAdvisor.Proofs.Text.Case
import NameAdvisor.Proofs.Text.Legal
import NameAdvisor.Proofs.Text.Pieces

/-!
# Classes of characters, and lines

Taking words out of a text and changing its case leaves texts of the same kind of characters, as long as these go over
into each other by case.  All characters but the line feed are such a class, so that a text of one line stays one; texts
of one line each can be told apart again after they were written as lines.

## Main definitions

* `Text.Within`: the texts of a class of characters.
* `Text.CaseClosed`: classes that hold the characters of names and go over into themselves by case.
* `Text.OneLine`: the texts without a line feed.
* `Text.written`: a text that is written as lines.
-/

namespace NameAdvisor.Text

/-- All characters of the text are in the class `P`. -/
def Within (P : Char → Prop) (s : String) : Prop :=
  ∀ c ∈ s.toList, P c

-- by name: the library also decides statements about all characters, by trying each there is
instance (P : Char → Prop) [DecidablePred P] (s : String) : Decidable (Within P s) :=
  List.decidableBAll _ s.toList

section Within

variable {P : Char → Prop}

@[simp] theorem within_append {s t : String} : Within P (s ++ t) ↔ Within P s ∧ Within P t := by
  rw [Within, String.toList_append, List.forall_mem_append]
  rfl

theorem within_ofList {cs : List Char} : Within P (String.ofList cs) ↔ ∀ c ∈ cs, P c := by
  rw [Within, String.toList_ofList]

theorem Within.of_subset {s : String} (h : Within P s) {cs : List Char} (hs : cs ⊆ s.toList) :
    Within P (String.ofList cs) :=
  within_ofList.mpr fun c hc => h c (hs hc)

theorem within_intercalate {sep : String} (hsep : Within P sep) {parts : List String} (h : ∀ s ∈ parts, Within P s) :
    Within P (sep.intercalate parts) := by
  induction parts with
  | nil => exact fun c hc => absurd hc (by simp)
  | cons s parts ih =>
    obtain ⟨hs, hparts⟩ := List.forall_mem_cons.mp h
    cases parts with
    | nil => simpa using hs
    | cons t parts =>
      rw [String.intercalate_cons_cons, within_append, within_append]
      exact ⟨⟨hs, hsep⟩, ih hparts⟩

end Within

/-! ## Case -/

/-- The class holds the characters of names, and goes over into itself by case. -/
structure CaseClosed (P : Char → Prop) : Prop where
  names : ∀ c, fitsName c = true → P c
  upper : ∀ c, P c → ∀ d ∈ upperCase c, P d
  lower : ∀ c, P c → ∀ d ∈ lowerCase c, P d
  sigma : P 'σ'
  finalSigma : P 'ς'

namespace CaseClosed

variable {P : Char → Prop} (hP : CaseClosed P)
include hP

/-- A literal of the characters of names is in the class. -/
theorem literal {s : String} (h : Fits s.toList) : Within P s :=
  fun c hc => hP.names c (h c hc)

theorem capitalized {s : String} (h : Within P s) : Within P (capitalized s) := by
  rw [Within, toList_capitalized]
  unfold Within at h
  cases hs : s.toList with
  | nil => exact List.forall_mem_nil _
  | cons c cs =>
    rw [hs] at h
    obtain ⟨hc, hcs⟩ := List.forall_mem_cons.mp h
    exact List.forall_mem_append.mpr ⟨hP.upper c hc, hcs⟩

theorem loweredAfter {before cs : List Char} (h : ∀ c ∈ cs, P c) : ∀ c ∈ loweredAfter before cs, P c := by
  induction cs generalizing before with
  | nil => exact List.forall_mem_nil _
  | cons c cs ih =>
    obtain ⟨hc, hcs⟩ := List.forall_mem_cons.mp h
    refine List.forall_mem_append.mpr ⟨?_, ih hcs⟩
    split
    · split
      · simpa using hP.finalSigma
      · simpa using hP.sigma
    · exact hP.lower c hc

theorem lowered {s : String} (h : Within P s) : Within P (lowered s) := by
  rw [Text.lowered, within_ofList]
  exact hP.loweredAfter h

end CaseClosed

/-! ## Lines -/

/-- The text holds no line feed. -/
abbrev OneLine (s : String) : Prop :=
  Within (· ≠ '\n') s

theorem ofNat_ne_lineFeed {n : Nat} (h : n ≠ 10) : Char.ofNat n ≠ '\n' := by
  intro he
  by_cases hn : n.isValidChar
  · rw [Char.ofNat, dif_pos hn] at he
    exact h (congrArg Char.toNat he)
  · rw [Char.ofNat, dif_neg hn] at he
    exact absurd he (by decide)

/-- Neither runs nor spellings make a line feed of a letter. -/
def makesNoLineFeed (runs : List LetterRun) (spellings : List (Nat × List Nat)) : Bool :=
  (runs.all fun r => 10 < (r.first : Int) + r.shift) && spellings.all fun e => e.2.all (· != 10)

theorem ne_lineFeed_of_mem_mapCase {runs : List LetterRun} {spellings : List (Nat × List Nat)}
    (h : makesNoLineFeed runs spellings = true) {c d : Char} (hc : c ≠ '\n') (hd : d ∈ mapCase runs spellings c) :
    d ≠ '\n' := by
  obtain ⟨hruns, hspellings⟩ := Bool.and_eq_true_iff.mp h
  unfold mapCase at hd
  split at hd
  · next n hn =>
    obtain ⟨r, hr, rfl⟩ := Option.map_eq_some_iff.mp hn
    have hfirst := of_decide_eq_true (List.all_eq_true.mp hruns r (List.mem_of_find?_eq_some hr))
    have hcovers : r.covers c.toNat = true := by simpa using List.find?_some hr
    have hstart := (LetterRun.covers_iff.mp hcovers).1
    rw [List.mem_singleton.mp hd, Int.ofNat_eq_natCast]
    exact ofNat_ne_lineFeed (by omega)
  · split at hd
    · next ns hns =>
      obtain ⟨n, hn, rfl⟩ := List.mem_map.mp hd
      obtain ⟨_, _, hsplit, -⟩ := List.lookup_eq_some_iff.mp hns
      have hall := List.all_eq_true.mp hspellings (c.toNat, ns) (by simp [hsplit])
      exact ofNat_ne_lineFeed (by simpa using List.all_eq_true.mp hall n hn)
    · rwa [List.mem_singleton.mp hd]

theorem ne_lineFeed_of_ascii {c : Char} (h : c.toNat < 128) (hc : c ≠ '\n') : c.toUpper ≠ '\n' ∧ c.toLower ≠ '\n' := by
  have hall : ∀ n < 128, Char.ofNat n ≠ '\n' → (Char.ofNat n).toUpper ≠ '\n' ∧ (Char.ofNat n).toLower ≠ '\n' := by
    decide
  have hn := hall c.toNat h
  rw [Char.ofNat_toNat] at hn
  exact hn hc

theorem caseClosed_ne_lineFeed : CaseClosed (· ≠ '\n') where
  names c hc := by
    rintro rfl
    exact absurd hc (by decide)
  upper c hc d hd := by
    unfold upperCase at hd
    split at hd
    · next hascii => exact List.mem_singleton.mp hd ▸ (ne_lineFeed_of_ascii hascii hc).1
    · exact ne_lineFeed_of_mem_mapCase (by decide +kernel) hc hd
  lower c hc d hd := by
    unfold lowerCase at hd
    split at hd
    · next hascii => exact List.mem_singleton.mp hd ▸ (ne_lineFeed_of_ascii hascii hc).2
    · exact ne_lineFeed_of_mem_mapCase (by decide +kernel) hc hd
  sigma := by decide
  finalSigma := by decide

theorem OneLine.notMem {s : String} (h : OneLine s) : '\n' ∉ s.toList :=
  fun hn => h _ hn rfl

theorem ne_lineFeed_of_mem_toDigits {n : Nat} : ∀ c ∈ Nat.toDigits 10 n, c ≠ '\n' := by
  rintro c hc rfl
  exact absurd (Nat.isDigit_of_mem_toDigits (by decide) (by decide) hc) (by decide)

theorem oneLine_toString (n : Nat) : OneLine (toString n) := by
  intro c hc
  exact ne_lineFeed_of_mem_toDigits c (by simpa using hc)

/-- Texts that are written as lines, each with its line feed. -/
def written (lines : List String) : String :=
  String.join (lines.map (· ++ "\n"))

theorem toList_written_cons (s : String) (lines : List String) :
    (written (s :: lines)).toList = s.toList ++ '\n' :: (written lines).toList := by
  simp [written, String.join_cons]

theorem count_written {lines : List String} (h : ∀ s ∈ lines, OneLine s) :
    (written lines).toList.count '\n' = lines.length := by
  induction lines with
  | nil => rfl
  | cons s lines ih =>
    obtain ⟨hs, hlines⟩ := List.forall_mem_cons.mp h
    rw [toList_written_cons, List.count_append, List.count_eq_zero_of_not_mem hs.notMem, List.count_cons_self, ih hlines,
      List.length_cons, Nat.zero_add]

/-- Lines are told apart again after they were written. -/
theorem split_written {lines : List String} (h : ∀ s ∈ lines, OneLine s) :
    split '\n' (written lines) = lines ++ [""] := by
  induction lines with
  | nil => rfl
  | cons s lines ih =>
    obtain ⟨hs, hlines⟩ := List.forall_mem_cons.mp h
    rw [split, toList_written_cons, splitChars_eq_splitOn, List.splitOn_append_cons_self_of_not_mem hs.notMem,
      List.map_cons, String.ofList_toList, List.cons_append, ← ih hlines, split, splitChars_eq_splitOn]

end NameAdvisor.Text
