import Mathlib.Order.Bounds.Basic
import TableLineage.Proofs.Sql.SpelledText

/-!
# Where a block comment ends

Block comments form trees where they nest: a comment holds chunks of text and other comments
(`CommentTree`).  The search for the end of a comment goes past every comment inside it, so it stops
behind the mark that matches the opening one; where comments do not nest, it stops behind the first
closing mark (`blockEnd?_unnested`).

The search is stated here of bytes, each read as a character of its own (`blockEndFrom?`).  It takes
a body that `BlockBody` derives, in either mode (`blockEndFrom?_eq_some_iff`), so what it finds is
settled by the bytes up to the end (`EndsAtMark`), and it is what the search in a text finds
(`blockEndFrom?_bytes_append`).
-/

namespace TableLineage.Sql

open Text (bytes)

/-! ## Marks and trees -/

/-- The bytes of `/*`. -/
def openMark : List UInt8 := [47, 42]

/-- The bytes of `*/`. -/
def closeMark : List UInt8 := [42, 47]

/-- A chunk of text in a comment.  It holds no mark, and no mark starts with its last byte. -/
structure CommentText where
  bytes : List UInt8
  no_open : ¬ openMark <:+: bytes
  no_close : ¬ closeMark <:+: bytes
  last_ne : bytes.getLast? ≠ some 47 ∧ bytes.getLast? ≠ some 42

/-- A comment, by what stands in it: chunks of text and other comments, one after the other. -/
inductive CommentTree where
  | empty
  | text (chunk : CommentText) (rest : CommentTree)
  | comment (inside rest : CommentTree)

namespace CommentTree

/-- What stands between the marks of a comment. -/
def inside : CommentTree → List UInt8
  | empty => []
  | text chunk rest => chunk.bytes ++ rest.inside
  | comment child rest => openMark ++ child.inside ++ closeMark ++ rest.inside

/-- A comment with its marks. -/
def printed (tree : CommentTree) : List UInt8 :=
  openMark ++ tree.inside ++ closeMark

end CommentTree

/-- The index behind the mark that closes a block comment whose body starts at an index of a byte
string. -/
def blockEndFrom? (nested : Bool) (bytes : List UInt8) (start : Nat) : Option Nat :=
  (blockEnd? nested 0 ((bytes.drop start).map byteCharacter)).map (· + start)

/-- The end that is found lies behind a closing mark, and it is the same whatever bytes follow.  If
none is found, none is found in fewer bytes. -/
structure EndsAtMark (nested : Bool) (bytes : List UInt8) (start : Nat) : Prop where
  le_length : ∀ stop, blockEndFrom? nested bytes start = some stop → stop ≤ bytes.length
  mark_before : ∀ stop, blockEndFrom? nested bytes start = some stop →
    ∃ place, start ≤ place ∧ stop = place + 2 ∧ closeMark <+: bytes.drop place
  kept : ∀ stop other, blockEndFrom? nested bytes start = some stop →
    blockEndFrom? nested (bytes.take stop ++ other) start = some stop
  none_of_prefix : blockEndFrom? nested bytes start = none →
    ∀ part, part <+: bytes → blockEndFrom? nested part start = none

section

variable {nested : Bool} {text chunk body : List Char} {start stop place position : Nat}

/-! ## Bodies of comments -/

/-- A comment ends with its closing mark. -/
theorem BlockBody.exists_append_mark (h : BlockBody nested body) :
    ∃ inside, body = inside ++ ['*', '/'] := by
  induction h with
  | close => exact ⟨[], rfl⟩
  | @char c body _ _ _ ih =>
      obtain ⟨inside, rfl⟩ := ih
      exact ⟨c :: inside, rfl⟩
  | @nest inner body _ _ _ _ ih =>
      obtain ⟨inside, rfl⟩ := ih
      exact ⟨'/' :: '*' :: (inner ++ inside), by simp⟩

theorem not_mark_prefix_cons {a b c : Char} (hmark : ¬ [a, b] <:+: c :: chunk)
    (hlast : (c :: chunk).getLast? ≠ some a) (rest : List Char) :
    ¬ [a, b] <+: c :: (chunk ++ rest) := by
  intro hprefix
  cases chunk with
  | nil =>
      obtain ⟨rfl, -⟩ := exists_of_mark_prefix hprefix
      exact hlast rfl
  | cons d chunk =>
      have hhere : [a, b] <+: c :: d :: chunk := by
        rw [List.cons_append, mark_prefix_iff] at hprefix
        exact mark_prefix_iff.mpr hprefix
      exact hmark hhere.isInfix

/-- Text without marks may stand in front of any part of a comment. -/
theorem BlockBody.append_text (h : BlockBody nested body) (hopen : ¬ ['/', '*'] <:+: chunk)
    (hclose : ¬ ['*', '/'] <:+: chunk)
    (hlast : chunk.getLast? ≠ some '/' ∧ chunk.getLast? ≠ some '*') :
    BlockBody nested (chunk ++ body) := by
  induction chunk with
  | nil => exact h
  | cons c chunk ih =>
      have htail : chunk <:+: c :: chunk := (List.suffix_cons c chunk).isInfix
      have hlastTail : chunk.getLast? ≠ some '/' ∧ chunk.getLast? ≠ some '*' := by
        cases chunk with
        | nil => simp
        | cons d chunk => simpa [List.getLast?_cons_cons] using hlast
      exact .char (not_mark_prefix_cons hclose hlast.2 body)
        (fun _ => not_mark_prefix_cons hopen hlast.1 body)
        (ih (fun hmark => hopen (hmark.trans htail))
          (fun hmark => hclose (hmark.trans htail)) hlastTail)

/-- Where comments do not nest, the search is one for the first closing mark. -/
theorem blockEnd?_unnested (text : List Char) :
    blockEnd? false 0 text = afterDelimiter? ['*', '/'] text := by
  induction text using marks_induction false with
  | nil => rfl
  | close rest =>
      have hhere : ['*', '/'] <+: '*' :: '/' :: rest := List.prefix_append ['*', '/'] rest
      rw [afterDelimiter?, Text.findPattern?_of_isPrefix hhere]
      rfl
  | mark rest hnested => exact absurd hnested (by simp)
  | char c rest hclose hopen ih =>
      have hstep : afterDelimiter? ['*', '/'] (c :: rest) =
          (afterDelimiter? ['*', '/'] rest).map (· + 1) := by
        rw [afterDelimiter?, afterDelimiter?, Text.findPattern?_of_not_isPrefix hclose,
          Option.map_map, Option.map_map]
        rfl
      rw [blockEnd?_char hclose hopen, ih, hstep]

end

/-! ## Bytes -/

section

variable {nested : Bool} {start stop place : Nat} {sql : List UInt8}

theorem byteCharacter_injective : Function.Injective byteCharacter := by
  intro a b h
  rw [← ofNat_toNat_byteCharacter a, h, ofNat_toNat_byteCharacter]

theorem map_infix_map_iff {mark chunk : List UInt8} :
    mark.map byteCharacter <:+: chunk.map byteCharacter ↔ mark <:+: chunk := by
  refine ⟨fun h => ?_, fun h => h.map byteCharacter⟩
  obtain ⟨found, hfound, hmark⟩ := List.infix_map_iff.mp h
  rwa [List.map_injective_iff.mpr byteCharacter_injective hmark]

theorem map_openMark : openMark.map byteCharacter = ['/', '*'] := by
  decide

theorem map_closeMark : closeMark.map byteCharacter = ['*', '/'] := by
  decide

/-- What the search passes is the body of a comment. -/
theorem blockEndFrom?_eq_some_iff :
    blockEndFrom? nested sql start = some stop ↔
      ∃ lead body rest, sql = lead ++ body ++ rest ∧ start = lead.length ∧
        stop = (lead ++ body).length ∧ BlockBody nested (body.map byteCharacter) := by
  rw [blockEndFrom?, Option.map_eq_some_iff]
  constructor
  · rintro ⟨position, hposition, rfl⟩
    obtain ⟨found, tail, hsplit, rfl, hbody⟩ := blockEnd?_eq_some_iff.mp hposition
    obtain ⟨body, rest, hdrop, rfl, rfl⟩ := List.map_eq_append_iff.mp hsplit
    have htwo := hbody.two_le_length
    -- the body is not empty, so the start lies within the bytes
    have hstart : start ≤ sql.length := by
      by_contra hlt
      rw [List.drop_eq_nil_of_le (by omega)] at hdrop
      obtain ⟨rfl, -⟩ := List.append_eq_nil_iff.mp hdrop.symm
      simp at htwo
    have hlead := List.length_take_of_le hstart
    refine ⟨sql.take start, body, rest, ?_, hlead.symm, ?_, hbody⟩
    · rw [List.append_assoc, ← hdrop, List.take_append_drop]
    · rw [List.length_map, List.length_append, hlead, Nat.add_comm]
  · rintro ⟨lead, body, rest, rfl, rfl, rfl, hbody⟩
    refine ⟨(body.map byteCharacter).length, ?_, ?_⟩
    · rw [List.append_assoc, List.drop_left, List.map_append]
      exact (blockEnd?_append_of_blockBody hbody).1 _
    · rw [List.length_map, List.length_append, Nat.add_comm]

/-- What is found lies within the bytes. -/
theorem blockEndFrom?_le_length (h : blockEndFrom? nested sql start = some stop) :
    stop ≤ sql.length := by
  obtain ⟨lead, body, rest, rfl, -, rfl, -⟩ := blockEndFrom?_eq_some_iff.mp h
  exact (List.prefix_append (lead ++ body) rest).length_le

/-- What is found lies directly behind a closing mark. -/
theorem exists_closeMark_of_blockEndFrom? (h : blockEndFrom? nested sql start = some stop) :
    ∃ place, start ≤ place ∧ stop = place + 2 ∧ closeMark <+: sql.drop place := by
  obtain ⟨lead, body, rest, rfl, rfl, rfl, hbody⟩ := blockEndFrom?_eq_some_iff.mp h
  obtain ⟨inside, hinside⟩ := hbody.exists_append_mark
  rw [← map_closeMark] at hinside
  obtain ⟨before, mark, rfl, rfl, hmark⟩ := List.map_eq_append_iff.mp hinside
  obtain rfl := List.map_injective_iff.mpr byteCharacter_injective hmark
  refine ⟨lead.length + before.length, Nat.le_add_right _ _, ?_, rest, ?_⟩
  · simp only [List.length_append, closeMark, List.length_cons, List.length_nil]
    omega
  · simp only [← List.length_append, List.append_assoc]
    rw [← List.append_assoc lead, List.drop_left]

/-- The bytes from the end on do not count. -/
theorem blockEndFrom?_take_append (h : blockEndFrom? nested sql start = some stop)
    (other : List UInt8) :
    blockEndFrom? nested (sql.take stop ++ other) start = some stop := by
  obtain ⟨lead, body, rest, rfl, hstart, rfl, hbody⟩ := blockEndFrom?_eq_some_iff.mp h
  rw [List.take_left]
  exact blockEndFrom?_eq_some_iff.mpr ⟨lead, body, other, rfl, hstart, rfl, hbody⟩

theorem endsAtMark (nested : Bool) (sql : List UInt8) (start : Nat) :
    EndsAtMark nested sql start := by
  refine ⟨fun _ => blockEndFrom?_le_length, fun _ => exists_closeMark_of_blockEndFrom?,
    fun _ other h => blockEndFrom?_take_append h other, ?_⟩
  rintro hnone part ⟨more, rfl⟩
  rw [Option.eq_none_iff_forall_not_mem]
  intro stop hstop
  -- what is found in the part would be found with the other bytes behind it, too
  have hsome := blockEndFrom?_take_append hstop (part.drop stop ++ more)
  rw [← List.append_assoc, List.take_append_drop, hnone] at hsome
  cases hsome

/-! ## The first mark and the matching mark -/

/-- Without nesting the first closing mark counts. -/
theorem blockEndFrom?_unnested_iff :
    blockEndFrom? false sql start = some stop ↔
      ∃ place, stop = place + 2 ∧
        IsLeast {place | start ≤ place ∧ closeMark <+: sql.drop place} place := by
  -- positions in the rest are places in the text, shifted by the start
  have hmark : ∀ position, ['*', '/'] <+: ((sql.drop start).map byteCharacter).drop position ↔
      closeMark <+: sql.drop (position + start) := by
    intro position
    calc ['*', '/'] <+: ((sql.drop start).map byteCharacter).drop position
        ↔ closeMark.map byteCharacter <+: (sql.drop (start + position)).map byteCharacter := by
          rw [← List.map_drop, List.drop_drop, map_closeMark]
      _ ↔ closeMark <+: sql.drop (position + start) := by
          rw [List.prefix_map_iff_of_injective byteCharacter_injective, Nat.add_comm]
  rw [blockEndFrom?, blockEnd?_unnested, afterDelimiter?, Option.map_map, Option.map_eq_some_iff]
  constructor
  · rintro ⟨position, hposition, rfl⟩
    obtain ⟨-, hfound, hfirst⟩ := Text.findPattern?_eq_some_iff.mp hposition
    refine ⟨position + start, Nat.add_right_comm position 2 start, ⟨Nat.le_add_left _ _, ?_⟩, ?_⟩
    · exact (hmark position).mp hfound
    · rintro other ⟨hle, hother⟩
      obtain ⟨earlier, rfl⟩ := Nat.exists_eq_add_of_le' hle
      by_contra hlt
      exact hfirst earlier (by omega) ((hmark earlier).mpr hother)
  · rintro ⟨place, rfl, ⟨hle, hfound⟩, hleast⟩
    obtain ⟨position, rfl⟩ := Nat.exists_eq_add_of_le' hle
    have hlength := ((hmark position).mpr hfound).length_le
    rw [List.length_drop] at hlength
    refine ⟨position, Text.findPattern?_eq_some_iff.mpr ⟨?_, (hmark position).mpr hfound, ?_⟩,
      Nat.add_right_comm position 2 start⟩
    · simp only [List.length_cons, List.length_nil] at hlength
      omega
    · intro earlier hlt hother
      have hge := hleast ⟨Nat.le_add_left start earlier, (hmark earlier).mp hother⟩
      omega

theorem CommentText.append_body {body : List Char} (chunk : CommentText)
    (h : BlockBody nested body) : BlockBody nested (chunk.bytes.map byteCharacter ++ body) := by
  have hlast : ∀ b, chunk.bytes.getLast? ≠ some b →
      (chunk.bytes.map byteCharacter).getLast? ≠ some (byteCharacter b) := by
    intro b hb hmap
    rw [List.getLast?_map, Option.map_eq_some_iff] at hmap
    obtain ⟨last, hlast, heq⟩ := hmap
    exact hb (hlast.trans (congrArg some (byteCharacter_injective heq)))
  apply h.append_text
  · rw [← map_openMark, map_infix_map_iff]
    exact chunk.no_open
  · rw [← map_closeMark, map_infix_map_iff]
    exact chunk.no_close
  · exact ⟨hlast 47 chunk.last_ne.1, hlast 42 chunk.last_ne.2⟩

/-- What stands in a comment is passed on the way to its closing mark. -/
theorem CommentTree.append_body {body : List Char} (tree : CommentTree) (h : BlockBody true body) :
    BlockBody true (tree.inside.map byteCharacter ++ body) := by
  induction tree generalizing body with
  | empty => exact h
  | text chunk rest ih =>
      rw [inside, List.map_append, List.append_assoc]
      exact chunk.append_body (ih h)
  | comment child rest ihChild ihRest =>
      have hchild := ihChild .close
      simp only [inside, List.map_append, map_openMark, map_closeMark, List.append_assoc]
      have hnest := BlockBody.nest rfl hchild (ihRest h)
      simpa using hnest

/-- The comment that starts with a mark ends with the mark that matches it, whatever follows. -/
theorem blockEndFrom?_printed (tree : CommentTree) (before after : List UInt8) :
    blockEndFrom? true (before ++ tree.printed ++ after) (before.length + openMark.length) =
      some (before ++ tree.printed).length := by
  refine blockEndFrom?_eq_some_iff.mpr ⟨before ++ openMark, tree.inside ++ closeMark, after, ?_,
    ?_, ?_, ?_⟩
  · simp [CommentTree.printed]
  · rw [List.length_append]
  · simp [CommentTree.printed]
  · rw [List.map_append, map_closeMark]
    exact tree.append_body .close

/-- In the bytes of a text the end is found that is found in the text. -/
theorem blockEndFrom?_bytes_append (nested : Bool) (lead text : List Char) :
    blockEndFrom? nested (bytes (lead ++ text)) (bytes lead).length =
      (blockEnd? nested 0 text).map fun position =>
        (bytes (lead ++ text.take position)).length := by
  have hspelled := findsSpelled_blockEnd? nested 0 text
  rw [FindsSpelled, spelled] at hspelled
  rw [blockEndFrom?, Text.bytes_append, List.drop_left, hspelled, Option.map_map]
  congr 1
  funext position
  calc (spelled (text.take position)).length + (bytes lead).length
      = (bytes lead).length + (bytes (text.take position)).length := by
        rw [spelled, List.length_map, Nat.add_comm]
    _ = (bytes (lead ++ text.take position)).length := by
        rw [Text.bytes_append, List.length_append]

/-- **A block comment ends at its mark.**  Where comments do not nest, the search finds the first
closing mark at or behind its start.  Where they nest, the search that starts behind the opening
mark of a comment finds the end of that comment, whatever stands in it and follows it.  In both
modes what is found ends with a mark and depends only on the bytes up to there, and in the bytes of
a text it is the end that the search in the text finds. -/
theorem comment_ends_at_its_mark :
    (∀ sql start stop, blockEndFrom? false sql start = some stop ↔
      ∃ place, stop = place + 2 ∧
        IsLeast {place | start ≤ place ∧ closeMark <+: sql.drop place} place) ∧
    (∀ (tree : CommentTree) (before after : List UInt8),
      blockEndFrom? true (before ++ tree.printed ++ after) (before.length + openMark.length) =
        some (before ++ tree.printed).length) ∧
    (∀ nested sql start, EndsAtMark nested sql start) ∧
    ∀ nested lead text, blockEndFrom? nested (bytes (lead ++ text)) (bytes lead).length =
      (blockEnd? nested 0 text).map fun position => (bytes (lead ++ text.take position)).length :=
  ⟨fun _ _ _ => blockEndFrom?_unnested_iff, blockEndFrom?_printed, endsAtMark,
    blockEndFrom?_bytes_append⟩

/-- In `/*/a/**b*/c*/` marks touch other bytes of marks: no comment closes at the first slash, and
the star behind the inner mark is text. -/
theorem comment_end_of_touching_marks :
    let child : CommentTree := .text ⟨[42, 98], by decide, by decide, by decide⟩ .empty
    let tree : CommentTree := .text ⟨[47, 97], by decide, by decide, by decide⟩
      (.comment child (.text ⟨[99], by decide, by decide, by decide⟩ .empty))
    tree.printed = [47, 42, 47, 97, 47, 42, 42, 98, 42, 47, 99, 42, 47] ∧
      blockEndFrom? true ([32] ++ tree.printed ++ [42, 47]) 3 = some 14 := by
  intro child tree
  exact ⟨by decide, comment_ends_at_its_mark.2.1 tree [32] [42, 47]⟩

end

end TableLineage.Sql
