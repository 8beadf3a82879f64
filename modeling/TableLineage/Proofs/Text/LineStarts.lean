import TableLineage.Proofs.Text.Bytes
import TableLineage.Proofs.Text.Search

/-!
# Where lines start

A text has a line for each line feed and one more.  It is cut before a line at `lineStart`, and an
offset lies on the line `lineOf`.  The two are adjoint: a line starts at an offset or before it if
and only if the offset lies on that line or on a later one (`lineStart_le_iff`).  This holds for
offsets within a character and past the end, where the last line goes on.  A line that is not there
starts at the end of the text.

What is before a line are the lines before it with their line feeds (`beforeLine_eq_firstLines`), so
a line starts between two characters.
-/

namespace TableLineage.Text

variable {text : List Char} {line offset : Nat}

/-! ## Offsets and lines -/

theorem lineFeeds_cons (c : Char) (text : List Char) :
    lineFeeds (c :: text) = lineFeeds text + if c = '\n' then 1 else 0 := by
  simp [lineFeeds, List.count_cons]

theorem lineOf_zero (text : List Char) : lineOf text 0 = 1 := by
  cases text <;> rfl

theorem lineOf_cons (c : Char) (text : List Char) (hoffset : offset ≠ 0) :
    lineOf (c :: text) offset = lineOf text (offset - c.utf8Size) + if c = '\n' then 1 else 0 := by
  rw [lineOf, takeBytes, if_neg hoffset, lineFeeds_cons, lineOf]
  omega

theorem lineStart_of_le_one (h : line ≤ 1) : lineStart text line = 0 := by
  cases text with
  | nil => rfl
  | cons c text => rw [lineStart, beforeLine, if_pos h]; rfl

theorem lineStart_cons (c : Char) (text : List Char) (h : ¬ line ≤ 1) :
    lineStart (c :: text) line =
      c.utf8Size + lineStart text (if c = '\n' then line - 1 else line) := by
  rw [lineStart, beforeLine, if_neg h]
  rfl

/-- A line starts at an offset or before it if and only if the offset lies on the line or after
it. -/
theorem lineStart_le_iff (hline : 1 ≤ line) (hlast : line ≤ 1 + lineFeeds text) :
    lineStart text line ≤ offset ↔ line ≤ lineOf text offset := by
  induction text generalizing line offset with
  | nil => exact iff_of_true (Nat.zero_le offset) hlast
  | cons c text ih =>
      by_cases hfirst : line ≤ 1
      · rw [lineStart_of_le_one hfirst]
        exact iff_of_true (Nat.zero_le offset) (hfirst.trans (Nat.le_add_left 1 _))
      have hsize := c.utf8Size_pos
      rw [lineFeeds_cons] at hlast
      rw [lineStart_cons c text hfirst]
      by_cases hinside : offset < c.utf8Size
      · -- the first character is not over, so neither is the first line
        have hone : lineOf (c :: text) offset = 1 := by
          by_cases hoffset : offset = 0
          · rw [hoffset, lineOf_zero]
          · have hfeed : c ≠ '\n' := by
              rintro rfl
              exact hoffset (Nat.lt_one_iff.mp hinside)
            rw [lineOf_cons c text hoffset, Nat.sub_eq_zero_of_le hinside.le, lineOf_zero,
              if_neg hfeed]
        omega
      · rw [lineOf_cons c text (by omega)]
        split
        case isTrue hfeed =>
            rw [if_pos hfeed] at hlast
            have hrest : lineStart text (line - 1) ≤ offset - c.utf8Size ↔
                line - 1 ≤ lineOf text (offset - c.utf8Size) := ih (by omega) (by omega)
            omega
        case isFalse hfeed =>
            rw [if_neg hfeed] at hlast
            have hrest : lineStart text line ≤ offset - c.utf8Size ↔
                line ≤ lineOf text (offset - c.utf8Size) := ih hline (by omega)
            omega

/-! ## The lines before a line -/

/-- The lines of a text, each but the last with the line feed that ends it. -/
def fullLines (text : List Char) : List (List Char) :=
  let pieces := splitOnP (· == '\n') text
  pieces.dropLast.map (· ++ ['\n']) ++ pieces.getLast?.toList

/-- The text of the first lines. -/
def firstLines (count : Nat) (text : List Char) : List Char :=
  ((fullLines text).take count).flatten

theorem fullLines_lineFeed (text : List Char) : fullLines ('\n' :: text) =
    ['\n'] :: fullLines text := by
  obtain ⟨first, others, heq, -, -⟩ := splitOnP_eq_cons (· == '\n') text
  simp [fullLines, splitOnP, heq]

theorem fullLines_cons {c : Char} (hfeed : c ≠ '\n') (text : List Char) :
    ∃ first others, fullLines text = first :: others ∧
      fullLines (c :: text) = (c :: first) :: others := by
  obtain ⟨first, others, heq, -, -⟩ := splitOnP_eq_cons (· == '\n') text
  cases others with
  | nil => exact ⟨first, [], by simp [fullLines, heq], by simp [fullLines, splitOnP, heq, hfeed]⟩
  | cons second others =>
      refine ⟨first ++ ['\n'],
        (second :: others).dropLast.map (· ++ ['\n']) ++ (second :: others).getLast?.toList, ?_, ?_⟩
      · simp [fullLines, heq]
      · simp [fullLines, splitOnP, heq, hfeed]

theorem beforeLine_eq_firstLines (text : List Char) (line : Nat) :
    beforeLine text line = firstLines (line - 1) text := by
  induction text generalizing line with
  | nil =>
      have hempty : ∀ piece ∈ (fullLines []).take (line - 1), piece = [] := fun piece hpiece =>
        List.mem_singleton.mp (List.mem_of_mem_take hpiece)
      exact (List.flatten_eq_nil_iff.mpr hempty).symm
  | cons c text ih =>
      rw [beforeLine]
      by_cases hfirst : line ≤ 1
      · rw [if_pos hfirst, Nat.sub_eq_zero_of_le hfirst]
        rfl
      · -- behind the first line, the walk goes on with one line less just if a line ends here
        obtain ⟨count, rfl⟩ : ∃ count, line = count + 2 := ⟨line - 2, by omega⟩
        rw [if_neg hfirst, ih]
        by_cases hfeed : c = '\n'
        · subst hfeed
          rw [if_pos rfl, firstLines, firstLines, fullLines_lineFeed]
          rfl
        · obtain ⟨first, others, htext, hcons⟩ := fullLines_cons hfeed text
          rw [if_neg hfeed, firstLines, firstLines, htext, hcons]
          rfl

theorem flatten_fullLines (text : List Char) : (fullLines text).flatten = text := by
  induction text with
  | nil => rfl
  | cons c text ih =>
      by_cases hfeed : c = '\n'
      · subst hfeed
        rw [fullLines_lineFeed, List.flatten_cons, ih]
        rfl
      · obtain ⟨first, others, htext, hcons⟩ := fullLines_cons hfeed text
        rw [htext] at ih
        rw [hcons, ← ih]
        rfl

theorem length_fullLines (text : List Char) : (fullLines text).length = 1 + lineFeeds text := by
  induction text with
  | nil => rfl
  | cons c text ih =>
      rw [lineFeeds_cons, ← Nat.add_assoc, ← ih]
      by_cases hfeed : c = '\n'
      · subst hfeed
        rw [fullLines_lineFeed]
        rfl
      · obtain ⟨first, others, htext, hcons⟩ := fullLines_cons hfeed text
        rw [htext, hcons, if_neg hfeed]
        rfl

theorem firstLines_prefix (count : Nat) (text : List Char) : firstLines count text <+: text := by
  have hsplit := congrArg List.flatten (List.take_append_drop count (fullLines text))
  rw [List.flatten_append, flatten_fullLines] at hsplit
  exact ⟨_, hsplit⟩

/-- The text before a line that is not there is the whole text. -/
theorem beforeLine_eq_self (h : 1 + lineFeeds text < line) : beforeLine text line = text := by
  rw [beforeLine_eq_firstLines, firstLines, List.take_of_length_le, flatten_fullLines]
  rw [length_fullLines]
  omega

theorem lineStart_eq (text : List Char) (line : Nat) :
    lineStart text line = (bytes (firstLines (line - 1) text)).length := by
  rw [lineStart, beforeLine_eq_firstLines, length_bytes]

/-- A line that is not there starts at the end. -/
theorem lineStart_of_lt (h : 1 + lineFeeds text < line) :
    lineStart text line = (bytes text).length := by
  rw [lineStart, beforeLine_eq_self h, length_bytes]

theorem lineStart_le_length (text : List Char) (line : Nat) :
    lineStart text line ≤ (bytes text).length := by
  obtain ⟨rest, hrest⟩ := firstLines_prefix (line - 1) text
  calc lineStart text line
      = (bytes (firstLines (line - 1) text)).length := lineStart_eq text line
    _ ≤ (bytes (firstLines (line - 1) text) ++ bytes rest).length := by simp
    _ = (bytes text).length := by rw [← bytes_append, hrest]

end TableLineage.Text
