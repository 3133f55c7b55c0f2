import Rendezvous.Text.Utf8

/-!
# Decoding the bytes of a text

The bytes of a text are decoded to its characters, without a gap (`decodeUtf8_utf8Bytes`).  Each form
of a character, from one byte to four, is undone by taking the bits of its bytes together again
(`leading?_utf8EncodeChar`).
-/

namespace Rendezvous.Text

/-- The bytes of a text. -/
def utf8Bytes (text : String) : List UInt8 :=
  text.toByteArray.data.toList

theorem utf8Bytes_eq_flatMap (text : String) :
    utf8Bytes text = text.toList.flatMap String.utf8EncodeChar := by
  rw [utf8Bytes, ← String.utf8Encode_toList, List.utf8Encode, List.toList_data_toByteArray]

theorem toNat_ofNat {n : Nat} (h : n < 256) : (UInt8.ofNat n).toNat = n :=
  UInt8.toNat_ofNat_of_lt' h

/-- A continuation byte adds its bits. -/
theorem continued?_cons {m : Nat} (hm : m < 64) (n count : Nat) (rest : List UInt8) :
    continued? n (count + 1) (UInt8.ofNat (m + 0x80) :: rest) = continued? (64 * n + m) count rest := by
  have hbits : continuation? (UInt8.ofNat (m + 0x80)) = some m := by
    rw [continuation?, toNat_ofNat (by omega), if_pos (by omega), Nat.add_sub_cancel]
  rw [continued?, hbits, Option.bind_some]

theorem scalar?_toNat {least : Nat} {c : Char} (h : least ≤ c.val.toNat) :
    scalar? least c.val.toNat = some c := by
  have hvalid : c.val.toNat.isValidChar := c.valid
  rw [scalar?, dif_pos hvalid, if_pos h]
  rfl

/-- The first byte of a character tells how many continuation bytes follow, and they give the
character. -/
theorem leading?_utf8EncodeChar (c : Char) (rest : List UInt8) :
    ∃ b bytes, String.utf8EncodeChar c = b :: bytes ∧
      leading? b (bytes ++ rest) = some (c, bytes.length) := by
  have hmax : c.val.toNat < 0x110000 := by
    have hvalid : c.val.toNat.isValidChar := c.valid
    unfold Nat.isValidChar at hvalid
    omega
  unfold String.utf8EncodeChar
  dsimp only
  -- in each form the first byte is in a range of its own, and the quotients fit in their bytes
  split
  · next hone =>
    refine ⟨_, _, rfl, ?_⟩
    simp only [leading?, toNat_ofNat (show c.val.toNat < 256 by omega)]
    rw [if_pos (by omega), continued?, Option.bind_some, scalar?_toNat (Nat.zero_le _)]
    rfl
  split
  · next hone htwo =>
    refine ⟨_, _, rfl, ?_⟩
    simp only [leading?, toNat_ofNat (show c.val.toNat / 64 % 0x20 + 0xc0 < 256 by omega)]
    rw [if_neg (by omega), if_neg (by omega), if_pos (by omega), List.cons_append,
      continued?_cons (by omega), continued?, Option.bind_some]
    have hbits : 64 * (c.val.toNat / 64 % 0x20 + 0xc0 - 0xc0) + c.val.toNat % 0x40 = c.val.toNat := by
      omega
    rw [hbits, scalar?_toNat (by omega)]
    rfl
  split
  · next hone htwo hthree =>
    refine ⟨_, _, rfl, ?_⟩
    simp only [leading?, toNat_ofNat (show c.val.toNat / 4096 % 0x10 + 0xe0 < 256 by omega)]
    rw [if_neg (by omega), if_neg (by omega), if_neg (by omega), if_pos (by omega), List.cons_append,
      continued?_cons (by omega), List.cons_append, continued?_cons (by omega), continued?,
      Option.bind_some]
    have hbits : 64 * (64 * (c.val.toNat / 4096 % 0x10 + 0xe0 - 0xe0) + c.val.toNat / 64 % 0x40) +
        c.val.toNat % 0x40 = c.val.toNat := by
      omega
    rw [hbits, scalar?_toNat (by omega)]
    rfl
  · next hone htwo hthree =>
    refine ⟨_, _, rfl, ?_⟩
    simp only [leading?, toNat_ofNat (show c.val.toNat / 262144 % 0x08 + 0xf0 < 256 by omega)]
    rw [if_neg (by omega), if_neg (by omega), if_neg (by omega), if_neg (by omega), if_pos (by omega),
      List.cons_append, continued?_cons (by omega), List.cons_append, continued?_cons (by omega),
      List.cons_append, continued?_cons (by omega), continued?, Option.bind_some]
    have hbits : 64 * (64 * (64 * (c.val.toNat / 262144 % 0x08 + 0xf0 - 0xf0) +
        c.val.toNat / 4096 % 0x40) + c.val.toNat / 64 % 0x40) + c.val.toNat % 0x40 = c.val.toNat := by
      omega
    rw [hbits, scalar?_toNat (by omega)]
    rfl

/-- The bytes of a character are decoded to the character. -/
theorem decodeUtf8_utf8EncodeChar_append (c : Char) (rest : List UInt8) :
    decodeUtf8 (String.utf8EncodeChar c ++ rest) = some c :: decodeUtf8 rest := by
  obtain ⟨b, bytes, hencode, hleading⟩ := leading?_utf8EncodeChar c rest
  rw [hencode, List.cons_append, decodeUtf8, hleading]
  show some c :: decodeUtf8 ((bytes ++ rest).drop bytes.length) = _
  rw [List.drop_left]

/-- The bytes of a text are decoded to its characters. -/
theorem decodeUtf8_utf8Bytes (text : String) : decodeUtf8 (utf8Bytes text) = decoded text := by
  rw [utf8Bytes_eq_flatMap, decoded]
  induction text.toList with
  | nil => rw [List.flatMap_nil, decodeUtf8, List.map_nil]
  | cons c chars ih =>
    rw [List.flatMap_cons, decodeUtf8_utf8EncodeChar_append, ih, List.map_cons]

end Rendezvous.Text
