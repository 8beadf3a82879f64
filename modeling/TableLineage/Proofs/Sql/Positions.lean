import Mathlib.Data.List.Forall2
import TableLineage.Proofs.Sql.ByteSegments
import TableLineage.Sql.Scan

/-!
# Places in a stripped text

Stripping writes over the bytes of a text one by one (`Overwrites`), so every offset and every line
stays what it was, and what comes out is UTF-8.  What stripping reports is the place of the one
delimiter that is not closed: the text before it is stripped as if it stood alone, the text from
there on is blank, and the scan warns of the line on which the delimiter stands.

These are statements about the bytes that are stripped, in `KeepsPlaces` and `WarnsAtOpening`.
-/

namespace TableLineage.Sql

open Text (bytes lineFeeds lineOf)

/-! ## What holds of a stripped text -/

/-- A byte is written over another: the same, or a space over one that ends no line. -/
def Overwrites (before after : UInt8) : Prop :=
  after = before ∨ (after = 32 ∧ before ≠ 10 ∧ before ≠ 13)

/-- The place of an issue is that of a delimiter.  It splits the text into a part that is stripped
as if it stood alone, and a part that is blanked. -/
structure IsOpening (rules : QuoteRules) (sql : String) (issue : StripIssue)
    (lead rest : List Char) : Prop where
  text_eq : sql.toList = lead ++ rest
  offset_eq : issue.offset = (bytes lead).length
  mark_prefix : issue.mark <+: rest
  stripped_before : stripBytes rules ((Text.Utf8.encode sql).take issue.offset) =
    ⟨(stripBytes rules (Text.Utf8.encode sql)).bytes.take issue.offset, []⟩
  blank_after : ∀ b ∈ (stripBytes rules (Text.Utf8.encode sql)).bytes.drop issue.offset,
    b = 32 ∨ b = 10 ∨ b = 13

/-- Stripping the bytes of a text gives the bytes of a text with the same offsets and lines, and one
issue at most. -/
structure KeepsPlaces (rules : QuoteRules) (sql : String) : Prop where
  decode_eq : Text.Utf8.decode (stripBytes rules (Text.Utf8.encode sql)).bytes =
    .ok (String.ofList (stripComments rules sql.toList).text)
  length_eq : (stripBytes rules (Text.Utf8.encode sql)).bytes.length =
    (Text.Utf8.encode sql).length
  overwrites : List.Forall₂ Overwrites (Text.Utf8.encode sql)
    (stripBytes rules (Text.Utf8.encode sql)).bytes
  line_eq : ∀ offset, lineOf (stripComments rules sql.toList).text offset = lineOf sql.toList offset
  issues_eq : (stripBytes rules (Text.Utf8.encode sql)).issues =
    (stripComments rules sql.toList).issues
  opening : (stripComments rules sql.toList).issues = [] ∨
    ∃ issue lead rest, (stripComments rules sql.toList).issues = [issue] ∧
      IsOpening rules sql issue lead rest

/-- The warning for an issue on a line. -/
def StripIssue.warningAt (line : Nat) : StripIssue → ScanWarning
  | unterminatedBlockComment _ => .unterminatedBlockComment line
  | unterminatedQuote quote _ => .unterminatedQuote quote line

/-- The scan warns of the line of a delimiter that is not closed. -/
structure WarnsAtOpening (dialect : Dialect) (sql : String) (issue : StripIssue)
    (lead rest : List Char) (line : Nat) : Prop where
  opening : IsOpening dialect.quoteRules sql issue lead rest
  line_eq : line = lineFeeds lead + 1
  one_le : 1 ≤ line
  le_lines : line ≤ 1 + lineFeeds sql.toList
  warnings_eq : (scan dialect sql).warnings =
    issue.warningAt line :: (scan dialect sql).recovery.warning?.toList

/-! ## Overwritten bytes -/

theorem Overwrites.refl (b : UInt8) : Overwrites b b :=
  .inl rfl

theorem Overwrites.lineFeed_iff {before after : UInt8} (h : Overwrites before after) :
    after = 10 ↔ before = 10 := by
  rcases h with rfl | ⟨rfl, hbefore, -⟩
  · rfl
  · exact ⟨fun hspace => absurd hspace (by decide), fun hfeed => absurd hfeed hbefore⟩

/-- Line feeds are kept at their offsets. -/
theorem count_take_of_overwrites {before after : List UInt8}
    (h : List.Forall₂ Overwrites before after) (offset : Nat) :
    (after.take offset).count 10 = (before.take offset).count 10 := by
  induction h generalizing offset with
  | nil => rfl
  | @cons b a before after hbyte _ ih =>
      cases offset with
      | zero => rfl
      | succ offset =>
          rw [List.take_succ_cons, List.take_succ_cons, List.count_cons, List.count_cons, ih]
          simp only [beq_iff_eq, hbyte.lineFeed_iff]

theorem bytes_replicate_space (count : Nat) :
    bytes (List.replicate count ' ') = List.replicate count 32 := by
  induction count with
  | zero => rfl
  | succ count ih =>
      rw [List.replicate_succ, Text.bytes_cons, ih]
      rfl

theorem overwrites_replicate {before : List UInt8} (h : ∀ b ∈ before, b ≠ 10 ∧ b ≠ 13) :
    List.Forall₂ Overwrites before (List.replicate before.length 32) := by
  induction before with
  | nil => exact .nil
  | cons b before ih =>
      obtain ⟨hb, hbefore⟩ := List.forall_mem_cons.mp h
      exact .cons (.inr ⟨rfl, hb⟩) (ih hbefore)

theorem overwrites_blanked (c : Char) :
    List.Forall₂ Overwrites (String.utf8EncodeChar c) (bytes (blanked c)) := by
  unfold blanked
  split_ifs with hend
  · rw [Text.bytes_cons, Text.bytes_nil, List.append_nil]
    exact List.forall₂_same.mpr fun b _ => .refl b
  · rw [bytes_replicate_space, ← String.length_utf8EncodeChar]
    apply overwrites_replicate
    intro b hmem
    constructor
    · rintro rfl
      exact hend (.inl (Char.toNat_inj.mp (Text.toNat_of_mem_utf8EncodeChar hmem (by decide))))
    · rintro rfl
      exact hend (.inr (Char.toNat_inj.mp (Text.toNat_of_mem_utf8EncodeChar hmem (by decide))))

theorem PartlyBlanked.overwrites {text other : List Char} (h : PartlyBlanked text other) :
    List.Forall₂ Overwrites (bytes text) (bytes other) := by
  induction h with
  | nil => exact .nil
  | @keep c text other h ih =>
      rw [Text.bytes_cons, Text.bytes_cons]
      exact List.rel_append (List.forall₂_same.mpr fun b _ => .refl b) ih
  | @blank c text other h ih =>
      rw [Text.bytes_cons, Text.bytes_append]
      exact List.rel_append (overwrites_blanked c) ih

section

variable {rules : QuoteRules} {sql lead rest : List Char} {issue : StripIssue}

theorem overwrites_stripComments (rules : QuoteRules) (sql : List Char) :
    List.Forall₂ Overwrites (bytes sql) (bytes (stripComments rules sql).text) := by
  have hblanked := PartlyBlanked.flatMap_stripped (segments rules sql)
  rw [segments, flatMap_text_segmentsFrom] at hblanked
  exact hblanked.overwrites

theorem lineOf_stripComments (rules : QuoteRules) (sql : List Char) (offset : Nat) :
    lineOf (stripComments rules sql).text offset = lineOf sql offset := by
  rw [Text.lineOf_eq_count, Text.lineOf_eq_count,
    count_take_of_overwrites (overwrites_stripComments rules sql)]

/-! ## The place of an issue -/

theorem mem_bytes_blanked {b : UInt8} (h : b ∈ bytes (rest.flatMap blanked)) :
    b = 32 ∨ b = 10 ∨ b = 13 := by
  obtain ⟨d, hd, hb⟩ := List.mem_flatMap.mp h
  rcases mem_flatMap_blanked hd with rfl | rfl | rfl
  · exact .inl (List.mem_singleton.mp hb)
  · exact .inr (.inl (List.mem_singleton.mp hb))
  · exact .inr (.inr (List.mem_singleton.mp hb))

theorem IsLeftOpen.isOpening (h : IsLeftOpen rules sql issue lead rest) :
    IsOpening rules (String.ofList sql) issue lead rest := by
  have hoffset : issue.offset = (bytes lead).length := by
    rw [h.offset_eq, Text.length_bytes]
  have hbytes : Text.Utf8.encode (String.ofList sql) = bytes lead ++ bytes rest := by
    rw [Text.encode_ofList, h.text_eq, Text.bytes_append]
  have hstripped : (stripBytes rules (Text.Utf8.encode (String.ofList sql))).bytes =
      bytes (stripComments rules lead).text ++ bytes (rest.flatMap blanked) := by
    rw [Text.encode_ofList, stripBytes_bytes, h.stripped_eq, Text.bytes_append]
  -- stripping keeps the bytes in front, so they are cut at the same offset
  have hlength : (bytes lead).length = (bytes (stripComments rules lead).text).length :=
    (overwrites_stripComments rules lead).length_eq
  refine ⟨?_, hoffset, h.mark_prefix, ?_, ?_⟩
  · rw [String.toList_ofList, h.text_eq]
  · have htake : (bytes (stripComments rules lead).text ++ bytes (rest.flatMap blanked)).take
        (bytes lead).length = bytes (stripComments rules lead).text := List.take_left' hlength.symm
    rw [hstripped, hbytes, hoffset, List.take_left, stripBytes_bytes, h.closed, htake]
  · rw [hstripped, hoffset, List.drop_left' hlength.symm]
    intro b hb
    exact mem_bytes_blanked hb

theorem takeBytes_append (lead rest : List Char) :
    Text.takeBytes (lead ++ rest) (Text.byteLength lead) = lead := by
  induction lead with
  | nil => cases rest <;> rfl
  | cons c lead ih =>
      have hpos := c.utf8Size_pos
      show (if c.utf8Size + Text.byteLength lead = 0 then [] else
        c :: Text.takeBytes (lead ++ rest) (c.utf8Size + Text.byteLength lead - c.utf8Size)) = _
      rw [if_neg (by omega), Nat.add_sub_cancel_left, ih]

theorem StripIssue.warning_eq (issue : StripIssue) (sql : List Char) :
    issue.warning sql = issue.warningAt (lineOf sql issue.offset) := by
  cases issue <;> rfl

/-! ## Stripping and scanning -/

theorem keepsPlaces (rules : QuoteRules) (sql : String) : KeepsPlaces rules sql := by
  have hencode := Text.encode_eq_bytes sql
  have hstripped := stripBytes_bytes rules sql.toList
  have hoverwrites := overwrites_stripComments rules sql.toList
  refine ⟨?_, ?_, ?_, lineOf_stripComments rules sql.toList, ?_, ?_⟩
  · rw [hencode, hstripped, Text.decode_bytes]
  · rw [hencode, hstripped]
    exact hoverwrites.length_eq.symm
  · rw [hencode, hstripped]
    exact hoverwrites
  · rw [hencode, hstripped]
  · rcases stripComments_cases rules sql.toList with hnone | ⟨issue, lead, rest, hopen⟩
    · exact .inl hnone
    · have hopening := hopen.isOpening
      rw [String.ofList_toList] at hopening
      exact .inr ⟨issue, lead, rest, by rw [hopen.stripped_eq], hopening⟩

theorem IsOpening.warnsAt {dialect : Dialect} {sql : String}
    (h : IsOpening dialect.quoteRules sql issue lead rest)
    (hissues : (stripComments dialect.quoteRules sql.toList).issues = [issue]) :
    WarnsAtOpening dialect sql issue lead rest (lineFeeds lead + 1) := by
  have hline : lineOf sql.toList issue.offset = lineFeeds lead + 1 := by
    rw [h.text_eq, h.offset_eq, Text.length_bytes, lineOf, takeBytes_append]
  have hfeeds : lineFeeds sql.toList = lineFeeds lead + lineFeeds rest := by
    rw [h.text_eq]
    exact List.count_append
  refine ⟨h, rfl, Nat.le_add_left 1 _, by omega, ?_⟩
  calc (scan dialect sql).warnings
      = (stripComments dialect.quoteRules sql.toList).issues.map (·.warning sql.toList) ++
          (scan dialect sql).recovery.warning?.toList := rfl
    _ = issue.warningAt (lineFeeds lead + 1) :: (scan dialect sql).recovery.warning?.toList := by
        rw [hissues, List.map_singleton, List.singleton_append, StripIssue.warning_eq, hline]

/-- Stripping keeps every place of a text and loses nothing in front of what is not closed, and the
scan warns of the line where that starts. -/
theorem stripping_keeps_positions (sql : String) :
    (∀ rules, KeepsPlaces rules sql) ∧
      ∀ dialect : Dialect, (stripComments dialect.quoteRules sql.toList).issues = [] ∨
        ∃ issue lead rest line, (stripComments dialect.quoteRules sql.toList).issues = [issue] ∧
          WarnsAtOpening dialect sql issue lead rest line := by
  refine ⟨fun rules => keepsPlaces rules sql, ?_⟩
  intro dialect
  apply (keepsPlaces dialect.quoteRules sql).opening.imp_right
  rintro ⟨issue, lead, rest, hissues, hopening⟩
  exact ⟨issue, lead, rest, _, hissues, hopening.warnsAt hissues⟩

end

end TableLineage.Sql
