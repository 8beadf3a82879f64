import Mathlib.Data.List.Basic
import TableLineage.Text.Utf8

/-!
# The bytes of a text

The UTF-8 form of a text is its characters' bytes in a row.  It reads back as the text
(`decode_bytes`), an ASCII character is its own only byte (`utf8EncodeChar_of_ascii`), and all bytes
of any other character lie outside ASCII (`le_of_mem_utf8EncodeChar`).  So lines can be counted in
bytes (`lineOf_eq_count`).
-/

namespace TableLineage.Text

/-- The bytes of a text's UTF-8 form. -/
def bytes (text : List Char) : List UInt8 :=
  text.flatMap String.utf8EncodeChar

@[simp] theorem bytes_nil : bytes [] = [] := rfl

theorem bytes_cons (c : Char) (text : List Char) :
    bytes (c :: text) = String.utf8EncodeChar c ++ bytes text := rfl

theorem bytes_append (text other : List Char) : bytes (text ++ other) = bytes text ++ bytes other :=
  List.flatMap_append

theorem length_bytes (text : List Char) : (bytes text).length = byteLength text := by
  induction text with
  | nil => rfl
  | cons c text ih =>
      rw [bytes_cons, List.length_append, String.length_utf8EncodeChar, ih]
      rfl

/-! ## Encoding -/

private theorem toList_loop (array : ByteArray) (i : Nat) (found : List UInt8) :
    ByteArray.toList.loop array i found = found.reverse ++ array.data.toList.drop i := by
  induction hleft : array.size - i generalizing i found with
  | zero =>
      have hsize : array.data.toList.length = array.size := by simp
      rw [ByteArray.toList.loop, if_neg (by omega), List.drop_eq_nil_of_le (by omega),
        List.append_nil]
  | succ left ih =>
      have hlt : i < array.size := by omega
      have hi : i < array.data.toList.length := by simpa using hlt
      -- the byte at the index is the first of those not read yet
      have hget : array.get! i = array.data.toList[i] := by
        show array.data[i]! = _
        rw [getElem!_pos array.data i hlt]
        exact (Array.getElem_toList hlt).symm
      calc ByteArray.toList.loop array i found
          = ByteArray.toList.loop array (i + 1) (array.get! i :: found) := by
            rw [ByteArray.toList.loop, if_pos hlt]
        _ = (array.get! i :: found).reverse ++ array.data.toList.drop (i + 1) :=
            ih (i + 1) _ (by omega)
        _ = found.reverse ++ array.data.toList[i] :: array.data.toList.drop (i + 1) := by
            rw [hget]
            simp
        _ = found.reverse ++ array.data.toList.drop i := by rw [List.drop_eq_getElem_cons hi]

theorem encode_ofList (text : List Char) : Utf8.encode (String.ofList text) = bytes text := by
  show ByteArray.toList text.utf8Encode = bytes text
  rw [ByteArray.toList, toList_loop]
  simp [List.utf8Encode, bytes]

theorem encode_eq_bytes (text : String) : Utf8.encode text = bytes text.toList := by
  rw [← encode_ofList, String.ofList_toList]

/-! ## Bytes of a character -/

theorem toNat_ofNat {n : Nat} (h : n < 256) : (UInt8.ofNat n).toNat = n := by
  rw [UInt8.toNat_ofNat']
  exact Nat.mod_eq_of_lt h

theorem utf8EncodeChar_of_ascii {c : Char} (h : c.toNat < 128) :
    String.utf8EncodeChar c = [UInt8.ofNat c.toNat] :=
  if_pos (Nat.le_of_lt_succ h)

theorem le_of_mem_utf8EncodeChar {c : Char} (h : 128 ≤ c.toNat) {b : UInt8}
    (hmem : b ∈ String.utf8EncodeChar c) : 128 ≤ b.toNat := by
  have hbyte : ∃ n, 128 ≤ n ∧ n < 256 ∧ b = UInt8.ofNat n := by
    unfold String.utf8EncodeChar at hmem
    rw [if_neg (show ¬ c.val.toNat ≤ 127 from Nat.not_le.mpr h)] at hmem
    split_ifs at hmem
    all_goals
      simp only [List.mem_cons, List.not_mem_nil, or_false] at hmem
    · rcases hmem with rfl | rfl
      all_goals exact ⟨_, by omega, by omega, rfl⟩
    · rcases hmem with rfl | rfl | rfl
      all_goals exact ⟨_, by omega, by omega, rfl⟩
    · rcases hmem with rfl | rfl | rfl | rfl
      all_goals exact ⟨_, by omega, by omega, rfl⟩
  obtain ⟨n, hle, hlt, rfl⟩ := hbyte
  rwa [toNat_ofNat hlt]

theorem toNat_of_mem_utf8EncodeChar {c : Char} {b : UInt8} (hmem : b ∈ String.utf8EncodeChar c)
    (hb : b.toNat < 128) : c.toNat = b.toNat := by
  by_cases hascii : c.toNat < 128
  · rw [utf8EncodeChar_of_ascii hascii, List.mem_singleton] at hmem
    rw [hmem, toNat_ofNat (by omega)]
  · have hle := le_of_mem_utf8EncodeChar (Nat.le_of_not_lt hascii) hmem
    omega

/-! ## Decoding -/

theorem isContinuation_ofNat {n : Nat} (h : n < 64) :
    Utf8.isContinuation (UInt8.ofNat (n + 128)) = true := by
  apply decide_eq_true
  rw [toNat_ofNat (by omega)]
  omega

theorem isSecond_ofNat {first second : Nat} (hfirst : first < 256) (hsecond : second < 256)
    (hlow : 0x80 ≤ second ∧ (first = 0xE0 → 0xA0 ≤ second) ∧ (first = 0xF0 → 0x90 ≤ second))
    (hhigh : second ≤ 0xBF ∧ (first = 0xED → second ≤ 0x9F) ∧ (first = 0xF4 → second ≤ 0x8F)) :
    Utf8.isSecond (UInt8.ofNat first) (UInt8.ofNat second) = true := by
  have heq : ∀ {n : Nat}, UInt8.ofNat first = UInt8.ofNat n → n < 256 → first = n := by
    intro n h hn
    rw [← toNat_ofNat hfirst, h, toNat_ofNat hn]
  apply decide_eq_true
  rw [toNat_ofNat hsecond]
  constructor
  · split_ifs with he0 hf0
    · exact hlow.2.1 (heq he0 (by decide))
    · exact hlow.2.2 (heq hf0 (by decide))
    · exact hlow.1
  · split_ifs with hed hf4
    · exact hhigh.2.1 (heq hed (by decide))
    · exact hhigh.2.2 (heq hf4 (by decide))
    · exact hhigh.1

/-- The bytes of a character are read as that character, whatever follows them. -/
theorem sequenceOf_utf8EncodeChar (c : Char) (rest : List UInt8) :
    ∃ first tail, String.utf8EncodeChar c = first :: tail ∧
      Utf8.sequenceOf first (tail ++ rest) = .char c tail.length := by
  have hchar : Char.ofNat c.val.toNat = c := Char.ofNat_toNat c
  -- a character is not a surrogate
  have hvalid : c.val.toNat < 0xD800 ∨ 0xDFFF < c.val.toNat ∧ c.val.toNat < 0x110000 := c.valid
  unfold String.utf8EncodeChar
  generalize c.val.toNat = v at hchar hvalid
  simp only
  split_ifs with hone htwo hthree
  · -- one byte
    refine ⟨_, [], rfl, ?_⟩
    simp only [Utf8.sequenceOf, toNat_ofNat (show v < 256 by omega)]
    rw [if_pos (by omega), hchar]
    rfl
  · -- two bytes: the code is put together from five and six bits
    refine ⟨_, _, rfl, ?_⟩
    simp only [Utf8.sequenceOf, List.cons_append, List.nil_append, List.length_cons,
      List.length_nil, toNat_ofNat (show v / 64 % 32 + 192 < 256 by omega)]
    rw [if_neg (by omega), if_neg (by omega), if_pos (by omega),
      if_pos (isContinuation_ofNat (by omega))]
    simp only [Utf8.codeOf, List.foldl_cons, List.foldl_nil,
      toNat_ofNat (show v % 64 + 128 < 256 by omega)]
    have hcode : (v / 64 % 32 + 192) % 32 * 64 + (v % 64 + 128) % 64 = v := by omega
    rw [hcode, hchar]
  · -- three bytes: the second one is in its range because the code is no surrogate
    refine ⟨_, _, rfl, ?_⟩
    simp only [Utf8.sequenceOf, List.cons_append, List.nil_append, List.length_cons,
      List.length_nil, toNat_ofNat (show v / 4096 % 16 + 224 < 256 by omega)]
    have hsecond : Utf8.isSecond (UInt8.ofNat (v / 4096 % 16 + 224))
        (UInt8.ofNat (v / 64 % 64 + 128)) = true :=
      isSecond_ofNat (by omega) (by omega) (by omega) (by omega)
    rw [if_neg (by omega), if_neg (by omega), if_neg (by omega), if_pos (by omega), hsecond,
      if_neg (by decide), if_pos (isContinuation_ofNat (by omega))]
    simp only [Utf8.codeOf, List.foldl_cons, List.foldl_nil,
      toNat_ofNat (show v / 64 % 64 + 128 < 256 by omega),
      toNat_ofNat (show v % 64 + 128 < 256 by omega)]
    have hcode : ((v / 4096 % 16 + 224) % 16 * 64 + (v / 64 % 64 + 128) % 64) * 64 +
        (v % 64 + 128) % 64 = v := by omega
    rw [hcode, hchar]
  · -- four bytes: the second one keeps the code within the last plane
    refine ⟨_, _, rfl, ?_⟩
    simp only [Utf8.sequenceOf, List.cons_append, List.nil_append, List.length_cons,
      List.length_nil, toNat_ofNat (show v / 262144 % 8 + 240 < 256 by omega)]
    have hsecond : Utf8.isSecond (UInt8.ofNat (v / 262144 % 8 + 240))
        (UInt8.ofNat (v / 4096 % 64 + 128)) = true :=
      isSecond_ofNat (by omega) (by omega) (by omega) (by omega)
    rw [if_neg (by omega), if_neg (by omega), if_neg (by omega), if_neg (by omega),
      if_pos (by omega), hsecond, if_neg (by decide), isContinuation_ofNat (by omega),
      if_neg (by decide), if_pos (isContinuation_ofNat (by omega))]
    simp only [Utf8.codeOf, List.foldl_cons, List.foldl_nil,
      toNat_ofNat (show v / 4096 % 64 + 128 < 256 by omega),
      toNat_ofNat (show v / 64 % 64 + 128 < 256 by omega),
      toNat_ofNat (show v % 64 + 128 < 256 by omega)]
    have hcode : (((v / 262144 % 8 + 240) % 8 * 64 + (v / 4096 % 64 + 128) % 64) * 64 +
        (v / 64 % 64 + 128) % 64) * 64 + (v % 64 + 128) % 64 = v := by omega
    rw [hcode, hchar]

theorem decodeFrom_skip (index : Nat) (tail rest : List UInt8) :
    Utf8.decodeFrom index tail.length (tail ++ rest) =
      Utf8.decodeFrom (index + tail.length) 0 rest := by
  induction tail generalizing index with
  | nil => rfl
  | cons b tail ih =>
      calc Utf8.decodeFrom index (b :: tail).length (b :: tail ++ rest)
          = Utf8.decodeFrom (index + 1) tail.length (tail ++ rest) := rfl
        _ = Utf8.decodeFrom (index + 1 + tail.length) 0 rest := ih (index + 1)
        _ = Utf8.decodeFrom (index + (b :: tail).length) 0 rest := by
            rw [List.length_cons, Nat.add_assoc, Nat.add_comm 1]

theorem decodeFrom_bytes (index : Nat) (text : List Char) :
    Utf8.decodeFrom index 0 (bytes text) = .ok text := by
  induction text generalizing index with
  | nil => rfl
  | cons c text ih =>
      obtain ⟨first, tail, hbytes, hchar⟩ := sequenceOf_utf8EncodeChar c (bytes text)
      rw [bytes_cons, hbytes, List.cons_append, Utf8.decodeFrom, hchar]
      simp only [decodeFrom_skip, ih]

theorem decode_bytes (text : List Char) : Utf8.decode (bytes text) = .ok (String.ofList text) := by
  rw [Utf8.decode, decodeFrom_bytes]
  rfl

/-! ## Lines -/

theorem not_mem_utf8EncodeChar_lineFeed {c : Char} (h : c ≠ '\n') :
    (10 : UInt8) ∉ String.utf8EncodeChar c := by
  intro hmem
  have hcode : c.toNat = 10 := toNat_of_mem_utf8EncodeChar hmem (by decide)
  exact h (Char.toNat_inj.mp hcode)

/-- Line feeds are the same in bytes and in characters, wherever a character may be cut. -/
theorem lineFeeds_takeBytes (text : List Char) (offset : Nat) :
    lineFeeds (takeBytes text offset) = ((bytes text).take offset).count 10 := by
  induction text generalizing offset with
  | nil => simp [takeBytes, lineFeeds]
  | cons c text ih =>
      by_cases hzero : offset = 0
      · simp [takeBytes, lineFeeds, hzero]
      · rw [takeBytes, if_neg hzero, bytes_cons, List.take_append, List.count_append,
          String.length_utf8EncodeChar, ← ih]
        by_cases hfeed : c = '\n'
        · -- a line feed is one byte, which is taken
          subst hfeed
          obtain ⟨offset, rfl⟩ := Nat.exists_eq_succ_of_ne_zero hzero
          show _ = List.count 10 ([10].take (offset + 1)) + _
          rw [List.take_succ_cons, List.take_nil, List.count_singleton_self, Nat.add_comm]
          exact List.count_cons_self
        · have hnone : 10 ∉ (String.utf8EncodeChar c).take offset :=
            fun hmem => not_mem_utf8EncodeChar_lineFeed hfeed (List.mem_of_mem_take hmem)
          rw [List.count_eq_zero_of_not_mem hnone, Nat.zero_add]
          exact List.count_cons_of_ne hfeed

/-- The line of an offset is found by counting the line feeds among the bytes before it. -/
theorem lineOf_eq_count (text : List Char) (offset : Nat) :
    lineOf text offset = ((bytes text).take offset).count 10 + 1 := by
  rw [lineOf, lineFeeds_takeBytes]

end TableLineage.Text
