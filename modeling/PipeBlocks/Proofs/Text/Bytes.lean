import PipeBlocks.Proofs.Text.Slice

/-! The bytes of a text.

In UTF-8 an ASCII character is one byte, and the bytes of all other characters are 128 or more. So
an ASCII character's byte is found exactly where the character stands
(`getElem?_bytes_eq_some_iff`), and a position at which it is found cuts no character. -/
namespace PipeBlocks.Text

@[simp] theorem bytes_cons (c : Char) (r : Text) :
    bytes (c :: r) = String.utf8EncodeChar c ++ bytes r := rfl

@[simp] theorem bytes_append (t u : Text) : bytes (t ++ u) = bytes t ++ bytes u :=
  List.flatMap_append

@[simp] theorem length_bytes (t : Text) : (bytes t).length = t.byteLength := by
  induction t with
  | nil => rfl
  | cons c r ih =>
    rw [bytes_cons, List.length_append, String.length_utf8EncodeChar, ih, byteLength_cons]

theorem utf8Size_of_isAscii {c : Char} (h : c.toNat < 128) : c.utf8Size = 1 := by
  rw [Char.utf8Size_eq_one_iff, UInt32.le_iff_toNat_le]
  exact Nat.le_of_lt_succ h

theorem byteLength_concat_of_isAscii {c : Char} (h : c.toNat < 128) (t : Text) :
    (t ++ [c]).byteLength = t.byteLength + 1 := by
  rw [byteLength_append, byteLength_cons, utf8Size_of_isAscii h]
  rfl

theorem utf8EncodeChar_of_isAscii {c : Char} (h : c.toNat < 128) :
    String.utf8EncodeChar c = [c.toUInt8] := by
  rw [String.utf8EncodeChar_eq_singleton (utf8Size_of_isAscii h), Char.toUInt8_val]

theorem le_of_mem_utf8EncodeChar {c : Char} (h : 128 ≤ c.toNat) {b : UInt8}
    (hb : b ∈ String.utf8EncodeChar c) : 128 ≤ b.toNat := by
  have hc : ¬ c.val.toNat ≤ 127 := Nat.not_le.mpr h
  simp only [String.utf8EncodeChar, hc, if_false] at hb
  split at hb
  · simp only [List.mem_cons, List.not_mem_nil, or_false] at hb
    rcases hb with rfl | rfl <;> simp <;> omega
  · split at hb
    · simp only [List.mem_cons, List.not_mem_nil, or_false] at hb
      rcases hb with rfl | rfl | rfl <;> simp <;> omega
    · simp only [List.mem_cons, List.not_mem_nil, or_false] at hb
      rcases hb with rfl | rfl | rfl | rfl <;> simp <;> omega

theorem toNat_toUInt8_of_isAscii {c : Char} (h : c.toNat < 128) : c.toUInt8.toNat = c.toNat := by
  have hmod : c.toUInt8.toNat = c.toNat % 256 := by
    rw [← Char.toUInt8_val, UInt32.toNat_toUInt8, Char.toNat_val]
  omega

theorem toUInt8_injective_of_isAscii {c d : Char} (hc : c.toNat < 128) (hd : d.toNat < 128)
    (h : c.toUInt8 = d.toUInt8) : c = d := by
  have hnat := congrArg UInt8.toNat h
  rw [toNat_toUInt8_of_isAscii hc, toNat_toUInt8_of_isAscii hd] at hnat
  exact Char.toNat_inj.mp hnat

/-- The byte of an ASCII character in a character's bytes: it is that character's only one. -/
theorem eq_of_mem_utf8EncodeChar {c d : Char} (hd : d.toNat < 128)
    (h : d.toUInt8 ∈ String.utf8EncodeChar c) : c = d := by
  by_cases hc : c.toNat < 128
  · rw [utf8EncodeChar_of_isAscii hc, List.mem_singleton] at h
    exact (toUInt8_injective_of_isAscii hd hc h).symm
  · have := le_of_mem_utf8EncodeChar (Nat.not_lt.mp hc) h
    rw [toNat_toUInt8_of_isAscii hd] at this
    exact absurd this (Nat.not_le.mpr hd)

/-- An ASCII character's byte is found exactly where the character stands. -/
theorem getElem?_bytes_eq_some_iff {d : Char} (hd : d.toNat < 128) {t : Text} {i : Nat} :
    t.bytes[i]? = some d.toUInt8 ↔
      ∃ before after, t = before ++ d :: after ∧ before.byteLength = i := by
  constructor
  · intro h
    induction t generalizing i with
    | nil => simp [bytes] at h
    | cons c r ih =>
      rw [bytes_cons] at h
      by_cases hi : i < c.utf8Size
      · rw [List.getElem?_append_left (by rwa [String.length_utf8EncodeChar])] at h
        obtain rfl := eq_of_mem_utf8EncodeChar hd (List.mem_of_getElem? h)
        have := utf8Size_of_isAscii hd
        exact ⟨[], r, rfl, by rw [byteLength_nil]; omega⟩
      · rw [List.getElem?_append_right (by rw [String.length_utf8EncodeChar]; omega),
          String.length_utf8EncodeChar] at h
        obtain ⟨before, after, rfl, hbefore⟩ := ih h
        exact ⟨c :: before, after, rfl, by rw [byteLength_cons]; omega⟩
  · rintro ⟨before, after, rfl, rfl⟩
    rw [bytes_append, List.getElem?_append_right (Nat.le_of_eq (length_bytes before)),
      length_bytes, Nat.sub_self,
      bytes_cons, utf8EncodeChar_of_isAscii hd]
    rfl

end PipeBlocks.Text
