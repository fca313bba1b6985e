import NameAdvisor.Text.Utf8

/-!
# The bytes of a text

The bytes of a text are those of its characters, one after the other.
-/

namespace NameAdvisor.Utf8

theorem encode_append (s t : String) : encode (s ++ t) = encode s ++ encode t :=
  String.toByteArray_append

theorem ofNat_ne_ten {n : Nat} (h : 128 ≤ n) (h' : n < 256) : UInt8.ofNat n ≠ 10 := by
  intro he
  have hn : (UInt8.ofNat n).toNat = 10 := he ▸ rfl
  rw [UInt8.toNat_ofNat'] at hn
  omega

/-- The bytes of a character other than the line break are no line breaks. -/
theorem ne_ten_of_mem_encodeChar {c : Char} (hc : c ≠ '\n') {b : UInt8} (hb : b ∈ String.utf8EncodeChar c) :
    b ≠ 10 := by
  have hv : c.val.toNat ≠ 10 := fun h => hc (Char.ext (UInt32.toNat_inj.mp h))
  simp only [String.utf8EncodeChar] at hb
  split at hb
  · obtain rfl := List.mem_singleton.mp hb
    intro h
    have hn : (UInt8.ofNat c.val.toNat).toNat = 10 := h ▸ rfl
    rw [UInt8.toNat_ofNat'] at hn
    omega
  · -- every byte of a longer character is marked as such
    split at hb
    · simp only [List.mem_cons, List.not_mem_nil, or_false] at hb
      rcases hb with rfl | rfl <;> exact ofNat_ne_ten (by omega) (by omega)
    · split at hb
      · simp only [List.mem_cons, List.not_mem_nil, or_false] at hb
        rcases hb with rfl | rfl | rfl <;> exact ofNat_ne_ten (by omega) (by omega)
      · simp only [List.mem_cons, List.not_mem_nil, or_false] at hb
        rcases hb with rfl | rfl | rfl | rfl <;> exact ofNat_ne_ten (by omega) (by omega)

theorem encode_ofList (cs : List Char) : encode (String.ofList cs) = ⟨(cs.flatMap String.utf8EncodeChar).toArray⟩ := by
  apply ByteArray.ext
  simp [encode, List.utf8Encode]

/-- Bytes that are taken one by one from some place on. -/
theorem loop_toList (bytes : ByteArray) (i : Nat) (taken : List UInt8) :
    ByteArray.toList.loop bytes i taken = taken.reverse ++ bytes.data.toList.drop i := by
  induction i, taken using ByteArray.toList.loop.induct bytes with
  | case1 i taken hi ih =>
    have hnext : bytes.data.toList.drop i = bytes.data[i] :: bytes.data.toList.drop (i + 1) := by
      rw [List.drop_eq_getElem_cons (by simpa using hi)]
      rfl
    rw [ByteArray.toList.loop, if_pos hi, ih, hnext]
    simp [ByteArray.get!, hi]
  | case2 i taken hi =>
    have hnone : bytes.data.toList.drop i = [] := List.drop_of_length_le (by simpa using hi)
    rw [ByteArray.toList.loop, if_neg hi, hnone, List.append_nil]

theorem toList_encode_singleton (c : Char) : (String.singleton c).toByteArray.toList = String.utf8EncodeChar c := by
  have h : (String.singleton c).toByteArray.data.toList = String.utf8EncodeChar c := by
    simp [String.toByteArray_singleton, List.utf8Encode_singleton]
  rw [ByteArray.toList, loop_toList, h]
  rfl

end NameAdvisor.Utf8
