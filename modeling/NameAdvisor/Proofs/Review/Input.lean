import NameAdvisor.Proofs.Text.Utf8
import NameAdvisor.Review.Session

/-!
# The lines of a text

The input of a review is read as bytes, line by line.  The bytes of a text have the lines of the text, since no byte
of another character is a line break.

## Main definitions

* `Text.lines`: the lines of a text, each with its line break; the last may lack it.
-/

namespace NameAdvisor

namespace Text

/-- The lines of some characters, each with its line break; the last may lack it. -/
def linesOfChars : List Char → List (List Char)
  | [] => []
  | c :: rest =>
    if c = '\n' then [c] :: linesOfChars rest
    else
      match linesOfChars rest with
      | [] => [[c]]
      | line :: lines => (c :: line) :: lines

/-- The lines of a text, each with its line break; the last may lack it. -/
def lines (text : String) : List String :=
  (linesOfChars text.toList).map String.ofList

end Text

namespace Review

/-- Lines with some bytes before the first of them. -/
def prependToFirst (bytes : List UInt8) : List (List Char) → List ByteArray
  | [] => if bytes.isEmpty then [] else [⟨bytes.toArray⟩]
  | line :: lines => ⟨(bytes ++ line.flatMap String.utf8EncodeChar).toArray⟩ ::
      lines.map fun line => Utf8.encode (String.ofList line)

theorem split_append_of_ne {bytes : List UInt8} (h : ∀ b ∈ bytes, b ≠ 10) (line rest : List UInt8) :
    inputLines.split line (bytes ++ rest) = inputLines.split (bytes.reverse ++ line) rest := by
  induction bytes generalizing line with
  | nil => rfl
  | cons b bytes ih =>
    obtain ⟨hb, hbs⟩ := List.forall_mem_cons.mp h
    rw [List.cons_append, inputLines.split, if_neg hb, ih hbs, List.reverse_cons, List.append_assoc,
      List.singleton_append]

theorem split_encode (line : List UInt8) (cs : List Char) :
    inputLines.split line (cs.flatMap String.utf8EncodeChar) = prependToFirst line.reverse (Text.linesOfChars cs) := by
  induction cs generalizing line with
  | nil => simp [inputLines.split, Text.linesOfChars, prependToFirst]
  | cons c rest ih =>
    rw [List.flatMap_cons, Text.linesOfChars]
    split
    · rename_i hc
      have hl : inputLines.split line (10 :: rest.flatMap String.utf8EncodeChar) =
          ⟨(line.reverse ++ [10]).toArray⟩ :: inputLines.split [] (rest.flatMap String.utf8EncodeChar) := by
        simp [inputLines.split]
      have hr : prependToFirst [] (Text.linesOfChars rest) =
          (Text.linesOfChars rest).map fun line => Utf8.encode (String.ofList line) := by
        cases Text.linesOfChars rest <;> simp [prependToFirst, Utf8.encode_ofList]
      subst hc
      exact hl.trans (by rw [ih, List.reverse_nil, hr]; rfl)
    · rename_i hc
      rw [split_append_of_ne fun b => Utf8.ne_ten_of_mem_encodeChar hc, ih, List.reverse_append, List.reverse_reverse]
      cases Text.linesOfChars rest <;> simp [prependToFirst]

/-- The lines of the bytes of a text are the bytes of its lines. -/
theorem inputLines_encode (text : String) : inputLines (Utf8.encode text) = (Text.lines text).map Utf8.encode := by
  have he := Utf8.encode_ofList text.toList
  rw [String.ofList_toList] at he
  rw [inputLines, he, split_encode, Text.lines]
  cases Text.linesOfChars text.toList <;> simp [prependToFirst, Utf8.encode_ofList]

end Review

end NameAdvisor
