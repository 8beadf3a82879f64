import TableLineage.Proofs.Sql.ClosedForms
import TableLineage.Proofs.Text.Bytes

/-!
# Searches in spelled texts

A text is spelled by reading each of its bytes as a character of its own.  Delimiters are ASCII, and
no byte of a character outside ASCII is (`IsForeign`).  So a search for a delimiter stops in the
spelled text at the bytes of the character at which it stops in the text (`FindsSpelled`), even if
an escape takes a single byte of a character that has several.
-/

namespace TableLineage.Sql

/-- A byte as a character of its own. -/
def byteCharacter (b : UInt8) : Char :=
  Char.ofNat b.toNat

/-- The bytes of a text, each as a character. -/
def spelled (text : List Char) : List Char :=
  (Text.bytes text).map byteCharacter

/-- Whether no character is ASCII. -/
def IsForeign (text : List Char) : Prop :=
  ∀ c ∈ text, 128 ≤ c.toNat

section

variable {rules : QuoteRules} {before other : Option Char} {c : Char}
  {text rest front : List Char} {kind : SegmentKind} {more : Nat}

theorem toNat_byteCharacter (b : UInt8) : (byteCharacter b).toNat = b.toNat := by
  have hvalid : b.toNat.isValidChar := .inl (Nat.lt_trans b.toNat_lt (by decide))
  rw [byteCharacter, Char.ofNat, dif_pos hvalid]
  rfl

theorem ofNat_toNat_byteCharacter (b : UInt8) : UInt8.ofNat (byteCharacter b).toNat = b := by
  rw [toNat_byteCharacter, UInt8.ofNat_toNat]

@[simp] theorem spelled_nil : spelled [] = [] := rfl

theorem spelled_append (text other : List Char) :
    spelled (text ++ other) = spelled text ++ spelled other := by
  rw [spelled, Text.bytes_append, List.map_append]
  rfl

theorem spelled_cons_of_ascii (h : c.toNat < 128) (rest : List Char) :
    spelled (c :: rest) = c :: spelled rest := by
  have hbyte : byteCharacter (UInt8.ofNat c.toNat) = c := by
    rw [byteCharacter, Text.toNat_ofNat (by omega), Char.ofNat_toNat]
  rw [spelled, Text.bytes_cons, Text.utf8EncodeChar_of_ascii h, List.singleton_append]
  rw [List.map_cons, hbyte]
  rfl

theorem spelled_of_ascii (h : ∀ c ∈ text, c.toNat < 128) : spelled text = text := by
  induction text with
  | nil => rfl
  | cons c text ih =>
      obtain ⟨hc, htext⟩ := List.forall_mem_cons.mp h
      rw [spelled_cons_of_ascii hc, ih htext]

/-- A character outside ASCII is spelled by bytes outside ASCII. -/
theorem exists_spelled_cons (h : 128 ≤ c.toNat) :
    ∃ front, IsForeign front ∧ front ≠ [] ∧ front.length = c.utf8Size ∧
      ∀ rest, spelled (c :: rest) = front ++ spelled rest := by
  have hlength : ((String.utf8EncodeChar c).map byteCharacter).length = c.utf8Size := by
    rw [List.length_map, String.length_utf8EncodeChar]
  refine ⟨(String.utf8EncodeChar c).map byteCharacter, ?_, ?_, hlength, ?_⟩
  · intro d hmem
    obtain ⟨b, hb, rfl⟩ := List.mem_map.mp hmem
    rw [toNat_byteCharacter]
    exact Text.le_of_mem_utf8EncodeChar h hb
  · apply List.ne_nil_of_length_pos
    rw [hlength]
    exact c.utf8Size_pos
  · intro rest
    rw [spelled, Text.bytes_cons, List.map_append]
    rfl

theorem length_spelled (text : List Char) : (spelled text).length = Text.byteLength text := by
  rw [spelled, List.length_map, Text.length_bytes]

/-! ## Starts of spelled texts -/

theorem ne_of_foreign {d : Char} (h : 128 ≤ c.toNat) (hd : d.toNat < 128) : c ≠ d := by
  rintro rfl
  omega

/-- A spelled text starts with ASCII characters if the text does. -/
theorem prefix_spelled_iff {pattern : List Char} (hpattern : ∀ d ∈ pattern, d.toNat < 128) :
    pattern <+: spelled text ↔ pattern <+: text := by
  induction pattern generalizing text with
  | nil => simp
  | cons d pattern ih =>
      obtain ⟨hd, hpattern⟩ := List.forall_mem_cons.mp hpattern
      cases text with
      | nil => simp
      | cons c rest =>
          by_cases hc : c.toNat < 128
          · rw [spelled_cons_of_ascii hc, List.cons_prefix_cons, List.cons_prefix_cons,
              ih hpattern]
          · have hforeign := Nat.le_of_not_lt hc
            obtain ⟨front, hfront, hne, -, hspelled⟩ := exists_spelled_cons hforeign
            -- the bytes of a foreign character are none of the pattern
            have hdc : d ≠ c := (ne_of_foreign hforeign hd).symm
            rw [hspelled, List.cons_prefix_cons]
            cases front with
            | nil => exact absurd rfl hne
            | cons e front =>
                have hde : d ≠ e := (ne_of_foreign (hfront e List.mem_cons_self) hd).symm
                rw [List.cons_append, List.cons_prefix_cons]
                simp only [hdc, hde, false_and]

theorem head_spelled_iff {d : Char} (hd : d.toNat < 128) :
    (spelled text).head? = some d ↔ text.head? = some d := by
  have hstart : ∀ t : List Char, t.head? = some d ↔ [d] <+: t := by
    intro t
    cases t <;> simp [eq_comm]
  rw [hstart, hstart]
  exact prefix_spelled_iff (by simpa using hd)

/-! ## Searches -/

/-- A search in a spelled text stops at the bytes of the character at which the search in the text
stops. -/
def FindsSpelled (search : List Char → Option Nat) (text : List Char) : Prop :=
  search (spelled text) = (search text).map fun position => (spelled (text.take position)).length

theorem findsSpelled_nil {search : List Char → Option Nat} (h : search [] = none) :
    FindsSpelled search [] := by
  rw [FindsSpelled, spelled_nil, h]
  rfl

/-- A search goes on with another behind a stretch that both texts have. -/
theorem FindsSpelled.of_skip {search next : List Char → Option Nat}
    (h : FindsSpelled next rest) (front : List Char)
    (hspelled : search (spelled (front ++ rest)) =
      (next (spelled rest)).map (· + (spelled front).length))
    (htext : search (front ++ rest) = (next rest).map (· + front.length)) :
    FindsSpelled search (front ++ rest) := by
  rw [FindsSpelled, hspelled, htext, h, Option.map_map, Option.map_map]
  congr 1
  funext position
  show (spelled (rest.take position)).length + (spelled front).length =
    (spelled ((front ++ rest).take (position + front.length))).length
  calc (spelled (rest.take position)).length + (spelled front).length
      = (spelled (front ++ rest.take position)).length := by
        rw [spelled_append, List.length_append, Nat.add_comm]
    _ = (spelled ((front ++ rest).take (position + front.length))).length := by
        rw [Nat.add_comm position, List.take_length_add_append]

/-- Stretches outside ASCII are skipped by a search that skips each of their characters. -/
theorem search_foreign_append {search : List Char → Option Nat}
    (hstep : ∀ c rest, 128 ≤ c.toNat → search (c :: rest) = (search rest).map (· + 1))
    (h : IsForeign front) (rest : List Char) :
    search (front ++ rest) = (search rest).map (· + front.length) := by
  induction front with
  | nil => simp
  | cons c front ih =>
      obtain ⟨hc, hfront⟩ := List.forall_mem_cons.mp h
      rw [List.cons_append, hstep c _ hc, ih hfront, Option.map_map]
      rfl

theorem FindsSpelled.cons_foreign {search : List Char → Option Nat}
    (hstep : ∀ c rest, 128 ≤ c.toNat → search (c :: rest) = (search rest).map (· + 1))
    (h : FindsSpelled search rest) (hc : 128 ≤ c.toNat) : FindsSpelled search (c :: rest) := by
  obtain ⟨front, hfront, -, -, hspelled⟩ := exists_spelled_cons hc
  have hfrontSpelled : spelled [c] = front := by
    rw [hspelled, spelled_nil, List.append_nil]
  apply h.of_skip [c]
  · rw [List.singleton_append, hspelled, hfrontSpelled]
    exact search_foreign_append hstep hfront _
  · exact hstep c rest hc

theorem FindsSpelled.cons_ascii {search : List Char → Option Nat}
    (h : FindsSpelled search rest) (hc : c.toNat < 128)
    (hspelled : search (c :: spelled rest) = (search (spelled rest)).map (· + 1))
    (htext : search (c :: rest) = (search rest).map (· + 1)) : FindsSpelled search (c :: rest) := by
  apply h.of_skip [c]
  · rw [List.singleton_append, spelled_cons_of_ascii hc, spelled_cons_of_ascii hc]
    exact hspelled
  · exact htext

section Quotes

variable {quote : Char} {escape : Option Char}

theorem closingQuote?_foreign (hquote : quote.toNat < 128)
    (hescape : ∀ e, escape = some e → e.toNat < 128) (hc : 128 ≤ c.toNat) (rest : List Char) :
    closingQuote? quote escape (c :: rest) = (closingQuote? quote escape rest).map (· + 1) := by
  apply closingQuote?_plain (ne_of_foreign hc hquote)
  intro heq
  exact ne_of_foreign hc (hescape c heq) rfl

/-- An escape takes one byte only, but the other bytes of a character are no quotes. -/
theorem closingQuote?_spelled_escaped (hquote : quote.toNat < 128)
    (hescape : ∀ e, escape = some e → e.toNat < 128) (hc : escape = some c) (d : Char) :
    closingQuote? quote escape (spelled ([c, d] ++ rest)) =
      (closingQuote? quote escape (spelled rest)).map (· + (spelled [c, d]).length) := by
  have hascii := hescape c hc
  rw [List.cons_append, List.singleton_append, spelled_cons_of_ascii hascii,
    spelled_cons_of_ascii hascii]
  by_cases hd : d.toNat < 128
  · rw [spelled_cons_of_ascii hd, spelled_cons_of_ascii hd]
    exact closingQuote?_escaped hc d _
  · obtain ⟨front, hfront, hne, -, hspelled⟩ := exists_spelled_cons (Nat.le_of_not_lt hd)
    rw [hspelled, hspelled, spelled_nil, List.append_nil]
    cases front with
    | nil => exact absurd rfl hne
    | cons e front =>
        -- the escape takes the first byte along, and no other byte is a quote
        have hskip : closingQuote? quote escape (front ++ spelled rest) =
            (closingQuote? quote escape (spelled rest)).map (· + front.length) := by
          apply search_foreign_append
          · intro c rest hc
            exact closingQuote?_foreign hquote hescape hc rest
          · exact (List.forall_mem_cons.mp hfront).2
        rw [List.cons_append, closingQuote?_escaped hc, hskip, Option.map_map]
        rfl

/-- A closing quote is found at its byte. -/
theorem findsSpelled_closingQuote? (hquote : quote.toNat < 128)
    (hescape : ∀ e, escape = some e → e.toNat < 128) (text : List Char) :
    FindsSpelled (closingQuote? quote escape) text := by
  induction text using quotes_induction quote escape with
  | nil => exact findsSpelled_nil rfl
  | cut e he =>
      rw [FindsSpelled, spelled_cons_of_ascii (hescape e he), spelled_nil, closingQuote?_cut he]
      rfl
  | escaped e c rest he ih =>
      apply ih.of_skip [e, c]
      · exact closingQuote?_spelled_escaped hquote hescape he c
      · exact closingQuote?_escaped he c rest
  | doubled rest hplain ih =>
      have htwice : spelled [quote, quote] = [quote, quote] :=
        spelled_of_ascii (by simpa using hquote)
      apply ih.of_skip [quote, quote]
      · rw [spelled_append, htwice]
        exact closingQuote?_doubled hplain _
      · exact closingQuote?_doubled hplain rest
  | close rest hplain hrest =>
      -- the byte behind the quote is a quote just if the character is
      have hspelled : (spelled rest).head? ≠ some quote := by
        rwa [Ne, head_spelled_iff hquote]
      rw [FindsSpelled, spelled_cons_of_ascii hquote,
        closingQuote?_eq_zero_iff.mpr ⟨hplain, rfl, hrest⟩,
        closingQuote?_eq_zero_iff.mpr ⟨hplain, rfl, hspelled⟩]
      rfl
  | plain c rest hc hplain ih =>
      by_cases hascii : c.toNat < 128
      · apply ih.cons_ascii hascii
        · exact closingQuote?_plain hc hplain _
        · exact closingQuote?_plain hc hplain _
      · apply ih.cons_foreign
        · intro c rest hc
          exact closingQuote?_foreign hquote hescape hc rest
        · exact Nat.le_of_not_lt hascii

end Quotes

theorem not_mark_prefix_of_foreign {a b : Char} (ha : a.toNat < 128) (hc : 128 ≤ c.toNat) :
    ¬ [a, b] <+: c :: rest := by
  rw [List.cons_prefix_cons]
  rintro ⟨rfl, -⟩
  exact ne_of_foreign hc ha rfl

theorem mark_prefix_spelled_iff {a b : Char} (ha : a.toNat < 128) (hb : b.toNat < 128)
    (hc : c.toNat < 128) : [a, b] <+: c :: spelled rest ↔ [a, b] <+: c :: rest := by
  rw [← spelled_cons_of_ascii hc]
  exact prefix_spelled_iff (by simpa using ⟨ha, hb⟩)

/-- The end of a block comment is found at its byte. -/
theorem findsSpelled_blockEnd? (nested : Bool) (depth : Nat) (text : List Char) :
    FindsSpelled (blockEnd? nested depth) text := by
  induction text using marks_induction nested generalizing depth with
  | nil => exact findsSpelled_nil rfl
  | close rest ih =>
      -- a mark is its own two bytes
      cases depth with
      | zero =>
          rw [FindsSpelled, spelled_cons_of_ascii (by decide), spelled_cons_of_ascii (by decide)]
          rfl
      | succ depth =>
          apply (ih depth).of_skip ['*', '/']
          · rw [spelled_append]
            rfl
          · rfl
  | mark rest hnested ih =>
      apply (ih (depth + 1)).of_skip ['/', '*']
      · rw [spelled_append]
        exact blockEnd?_open hnested _
      · exact blockEnd?_open hnested _
  | char c rest hclose hopen ih =>
      -- a character is no mark, and neither is a byte of a foreign one
      by_cases hascii : c.toNat < 128
      · apply (ih depth).cons_ascii hascii
        · apply blockEnd?_char
          · rwa [mark_prefix_spelled_iff (by decide) (by decide) hascii]
          · rwa [mark_prefix_spelled_iff (by decide) (by decide) hascii]
        · exact blockEnd?_char hclose hopen
      · apply (ih depth).cons_foreign
        · intro c rest hc
          apply blockEnd?_char
          · exact not_mark_prefix_of_foreign (by decide) hc
          · intro _
            exact not_mark_prefix_of_foreign (by decide) hc
        · exact Nat.le_of_not_lt hascii

/-- A delimiter is found at its byte. -/
theorem findsSpelled_findPattern? {d : Char} {pattern : List Char}
    (hpattern : ∀ e ∈ d :: pattern, e.toNat < 128) (text : List Char) :
    FindsSpelled (Text.findPattern? (d :: pattern)) text := by
  induction text with
  | nil => exact findsSpelled_nil rfl
  | cons c rest ih =>
      by_cases hc : c.toNat < 128
      · have hspelled : d :: pattern <+: spelled (c :: rest) ↔ d :: pattern <+: c :: rest :=
          prefix_spelled_iff hpattern
        rw [spelled_cons_of_ascii hc] at hspelled
        by_cases hprefix : d :: pattern <+: c :: rest
        · rw [FindsSpelled, spelled_cons_of_ascii hc, Text.findPattern?,
            if_pos (List.isPrefixOf_iff_prefix.mpr (hspelled.mpr hprefix)), Text.findPattern?,
            if_pos (List.isPrefixOf_iff_prefix.mpr hprefix)]
          rfl
        · apply ih.cons_ascii hc
          · exact Text.findPattern?_of_not_isPrefix (mt hspelled.mp hprefix)
          · exact Text.findPattern?_of_not_isPrefix hprefix
      · apply ih.cons_foreign
        · intro c rest hc
          apply Text.findPattern?_of_not_isPrefix
          rw [List.cons_prefix_cons]
          rintro ⟨rfl, -⟩
          exact ne_of_foreign hc (hpattern _ List.mem_cons_self) rfl
        · exact Nat.le_of_not_lt hc

theorem takeWhile_line_spelled (text : List Char) :
    (spelled text).takeWhile (· != '\n') = spelled (text.takeWhile (· != '\n')) := by
  induction text with
  | nil => rfl
  | cons c text ih =>
      by_cases hc : c.toNat < 128
      · rw [spelled_cons_of_ascii hc, List.takeWhile_cons, List.takeWhile_cons, ih]
        split_ifs
        · rw [spelled_cons_of_ascii hc]
        · rfl
      · have hforeign := Nat.le_of_not_lt hc
        obtain ⟨front, hfront, -, -, hspelled⟩ := exists_spelled_cons hforeign
        have hne : ∀ d : Char, 128 ≤ d.toNat → (d != '\n') = true := by
          intro d hd
          exact bne_iff_ne.mpr (ne_of_foreign hd (by decide))
        rw [hspelled, List.takeWhile_append_of_pos fun d hd => hne d (hfront d hd), ih,
          List.takeWhile_cons_of_pos (p := (· != '\n')) (hne c hforeign), hspelled]

end

end TableLineage.Sql
