/-!
# Lib — Utf8

Where a UTF-8 text may be cut: in front of a byte that begins a character.
-/

namespace RuntimeBle.Lib.Utf8

/-- The bytes are a UTF-8 text. -/
def Valid (bytes : List UInt8) : Prop := (ByteArray.mk bytes.toArray).IsValidUTF8

instance (bytes : List UInt8) : Decidable (Valid bytes) :=
  inferInstanceAs (Decidable (ByteArray.IsValidUTF8 _))

variable {bytes : List UInt8} {n : Nat}

theorem valid_nil : Valid [] := ByteArray.isValidUTF8_empty

theorem extract_zero_mk (n : Nat) :
    (ByteArray.mk bytes.toArray).extract 0 n = ByteArray.mk (bytes.take n).toArray := by
  apply ByteArray.ext
  rw [ByteArray.data_extract, List.extract_toArray, List.extract_eq_take_drop]
  simp

/-- **A text may be cut in front of a character, and nowhere else.** -/
theorem valid_take_iff (h : Valid bytes) {c : UInt8} (hc : bytes[n]? = some c) :
    Valid (bytes.take n) ↔ c.IsUTF8FirstByte := by
  obtain ⟨hn, hget⟩ := List.getElem?_eq_some_iff.mp hc
  let s : String := String.ofByteArray _ h
  have hsize : s.rawEndPos.byteIdx = bytes.length := rfl
  have hvalid : (String.Pos.Raw.mk n).IsValid s ↔ Valid (bytes.take n) := by
    rw [String.Pos.Raw.isValid_iff_isValidUTF8_extract_zero]
    have hle : String.Pos.Raw.mk n ≤ s.rawEndPos := Nat.le_of_lt hn
    show _ ∧ ((ByteArray.mk bytes.toArray).extract 0 n).IsValidUTF8 ↔ _
    rw [extract_zero_mk]
    exact and_iff_right hle
  have hbyte : ∀ hlt, s.getUTF8Byte ⟨n⟩ hlt = c := fun _ => hget
  rw [← hvalid, String.Pos.Raw.isValid_iff_isUTF8FirstByte]
  constructor
  · rintro (hend | ⟨hlt, hfirst⟩)
    · have : n = bytes.length := congrArg String.Pos.Raw.byteIdx hend
      omega
    · rwa [hbyte] at hfirst
  · intro hfirst
    have hlt : String.Pos.Raw.mk n < s.rawEndPos := hn
    exact .inr ⟨hlt, by rwa [hbyte]⟩

end RuntimeBle.Lib.Utf8
