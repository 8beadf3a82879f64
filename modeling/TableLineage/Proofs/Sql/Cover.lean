import Mathlib.Data.List.Basic
import TableLineage.Sql.Comment

/-!
# Segments that end at a given place

`covers` says that the segments from a place on, up to one that ends a given number of characters
later, are of accepted kinds.  Then the segments of the text are those followed by the segments of
the rest (`segmentsFrom_of_covers`).

A stretch is covered by segments of code if no character of it starts a quote or a comment
(`covers_of_isPlain`), and a quoted name or string by one segment (`covers_segment`).
-/

namespace TableLineage.Sql

/-- The last character of a text, or the one before it. -/
def lastCharacter (before : Option Char) (text : List Char) : Option Char :=
  text.foldl (fun _ c => some c) before

@[simp] theorem lastCharacter_nil (before : Option Char) : lastCharacter before [] = before := rfl

@[simp] theorem lastCharacter_cons (before : Option Char) (c : Char) (text : List Char) :
    lastCharacter before (c :: text) = lastCharacter (some c) text := rfl

theorem lastCharacter_append (before : Option Char) (text other : List Char) :
    lastCharacter before (text ++ other) = lastCharacter (lastCharacter before text) other :=
  List.foldl_append

theorem lastCharacter_of_ne_nil {before : Option Char} {text : List Char} (h : text ≠ []) :
    ∃ d ∈ text, lastCharacter before text = some d := by
  induction text generalizing before with
  | nil => exact absurd rfl h
  | cons c text ih =>
      rw [lastCharacter_cons]
      by_cases hnil : text = []
      · exact ⟨c, List.mem_cons_self, by rw [hnil, lastCharacter_nil]⟩
      · obtain ⟨d, hmem, hlast⟩ := ih hnil
        exact ⟨d, List.mem_cons_of_mem c hmem, hlast⟩

/-- Whether the segments from a place on end after `count` characters and are of accepted kinds; the
first `skip` characters belong to a segment that is already cut off. -/
def covers (rules : QuoteRules) (accept : SegmentKind → Bool) (before : Option Char) :
    Nat → Nat → List Char → Bool
  | skip, 0, _ => skip == 0
  | _, _ + 1, [] => false
  | skip + 1, count + 1, c :: rest => covers rules accept (some c) skip count rest
  | 0, count + 1, c :: rest =>
    accept (segmentAt rules before c rest).1 &&
      covers rules accept (some c) (segmentAt rules before c rest).2 count rest

section

variable {rules : QuoteRules} {accept : SegmentKind → Bool} {before : Option Char}
  {skip count : Nat} {text : List Char}

theorem skip_le_of_covers (h : covers rules accept before skip count text = true) :
    skip ≤ count := by
  induction count generalizing before skip text with
  | zero =>
      have hskip : skip = 0 := by simpa [covers] using h
      exact Nat.le_of_eq hskip
  | succ count ih =>
      cases text with
      | nil => simp [covers] at h
      | cons c rest =>
          cases skip with
          | zero => exact Nat.zero_le _
          | succ skip => exact Nat.succ_le_succ (ih h)

theorem length_le_of_covers (h : covers rules accept before skip count text = true) :
    count ≤ text.length := by
  induction count generalizing before skip text with
  | zero => exact Nat.zero_le _
  | succ count ih =>
      cases text with
      | nil => simp [covers] at h
      | cons c rest =>
          cases skip with
          | zero =>
              simp only [covers, Bool.and_eq_true] at h
              exact Nat.succ_le_succ (ih h.2)
          | succ skip => exact Nat.succ_le_succ (ih h)

/-- Segments that cover the start of a text come first, and are followed by those of the rest. -/
theorem segmentsFrom_of_covers (h : covers rules accept before skip count text = true) :
    ∃ cut, segmentsFrom rules before skip text =
        cut ++ segmentsFrom rules (lastCharacter before (text.take count)) 0 (text.drop count) ∧
      (∀ segment ∈ cut, accept segment.kind = true) ∧
      cut.flatMap Segment.text = (text.take count).drop skip := by
  induction count generalizing before skip text with
  | zero =>
      obtain rfl : skip = 0 := by simpa [covers] using h
      exact ⟨[], by simp, by simp, by simp⟩
  | succ count ih =>
      cases text with
      | nil => simp [covers] at h
      | cons c rest =>
          cases skip with
          | succ skip =>
              obtain ⟨cut, hcut, haccept, htext⟩ := ih h
              exact ⟨cut, hcut, haccept, htext⟩
          | zero =>
              simp only [covers, Bool.and_eq_true] at h
              obtain ⟨cut, hcut, haccept, htext⟩ := ih h.2
              -- the segment at the first character ends within the covered stretch
              have hle := skip_le_of_covers h.2
              refine ⟨⟨(segmentAt rules before c rest).1,
                c :: rest.take (segmentAt rules before c rest).2⟩ :: cut, ?_, ?_, ?_⟩
              · rw [segmentsFrom]
                simp only [hcut, List.cons_append]
                rfl
              · intro segment hmem
                rcases List.mem_cons.mp hmem with rfl | hmem
                · exact h.1
                · exact haccept segment hmem
              · rw [List.flatMap_cons, htext, List.take_succ_cons, List.drop_zero,
                  List.cons_append]
                congr 1
                have htake : rest.take (segmentAt rules before c rest).2 =
                    (rest.take count).take (segmentAt rules before c rest).2 := by
                  rw [List.take_take, Nat.min_eq_left hle]
                rw [htake, List.take_append_drop]

/-- Two covered stretches in a row. -/
theorem covers_add {more : Nat} (h : covers rules accept before skip count text = true)
    (hmore : covers rules accept (lastCharacter before (text.take count)) 0 more
      (text.drop count) = true) :
    covers rules accept before skip (count + more) text = true := by
  induction count generalizing before skip text with
  | zero =>
      obtain rfl : skip = 0 := by simpa [covers] using h
      simpa using hmore
  | succ count ih =>
      cases text with
      | nil => simp [covers] at h
      | cons c rest =>
          rw [Nat.succ_add]
          cases skip with
          | succ skip => exact ih h hmore
          | zero =>
              simp only [covers, Bool.and_eq_true] at h ⊢
              exact ⟨h.1, ih h.2 hmore⟩

theorem covers_mono {weaker : SegmentKind → Bool}
    (hweaker : ∀ kind, accept kind = true → weaker kind = true)
    (h : covers rules accept before skip count text = true) :
    covers rules weaker before skip count text = true := by
  induction count generalizing before skip text with
  | zero => exact h
  | succ count ih =>
      cases text with
      | nil => simp [covers] at h
      | cons c rest =>
          cases skip with
          | succ skip => exact ih h
          | zero =>
              simp only [covers, Bool.and_eq_true] at h ⊢
              exact ⟨hweaker _ h.1, ih h.2⟩

/-- A segment that is cut off reaches as far as it takes characters. -/
theorem covers_self (h : count ≤ text.length) :
    covers rules accept before count count text = true := by
  induction count generalizing before text with
  | zero => rfl
  | succ count ih =>
      cases text with
      | nil => simp at h
      | cons c rest => exact ih (by simpa using h)

/-- A segment that is not cut off ends the characters before it. -/
theorem segmentsFrom_skip :
    segmentsFrom rules before skip text =
      segmentsFrom rules (lastCharacter before (text.take skip)) 0 (text.drop skip) := by
  induction skip generalizing before text with
  | zero => rfl
  | succ skip ih =>
      cases text with
      | nil => rfl
      | cons c rest => exact ih

end

/-! ## Single segments -/

section

variable {rules : QuoteRules} {accept : SegmentKind → Bool} {before : Option Char} {c : Char}
  {rest : List Char}

theorem segmentsFrom_cons :
    segmentsFrom rules before 0 (c :: rest) =
      ⟨(segmentAt rules before c rest).1, c :: rest.take (segmentAt rules before c rest).2⟩ ::
        segmentsFrom rules (some c) (segmentAt rules before c rest).2 rest := by
  rw [segmentsFrom]

/-- A segment of an accepted kind covers the characters that it takes. -/
theorem covers_segment {kind : SegmentKind} {more : Nat}
    (h : segmentAt rules before c rest = (kind, more)) (haccept : accept kind = true)
    (hle : more ≤ rest.length) : covers rules accept before 0 (more + 1) (c :: rest) = true := by
  simp only [covers, h, haccept, Bool.true_and]
  exact covers_self hle

/-- A character of code in front of what is covered is covered too. -/
theorem covers_cons_code {count : Nat} (h : segmentAt rules before c rest = (.code, 0))
    (haccept : accept .code = true) (hrest : covers rules accept (some c) 0 count rest = true) :
    covers rules accept before 0 (count + 1) (c :: rest) = true := by
  simp only [covers, h, haccept, Bool.true_and]
  exact hrest

theorem covers_of_cons_code {count : Nat} (h : segmentAt rules before c rest = (.code, 0))
    (hcovers : covers rules accept before 0 (count + 1) (c :: rest) = true) :
    covers rules accept (some c) 0 count rest = true := by
  simp only [covers, h, Bool.and_eq_true] at hcovers
  exact hcovers.2

/-! ## Code -/

/-- Whether a character starts no quote and no comment in any dialect. -/
def isQuiet (c : Char) : Bool :=
  c ∉ ['-', '/', '\'', '"', '\x60', '[', '$']

theorem isQuiet_of_imp {p : Char → Bool}
    (h : ['-', '/', '\'', '"', '\x60', '[', '$'].all (fun d => !p d) = true) (hc : p c = true) :
    isQuiet c = true := by
  rw [isQuiet, decide_eq_true_eq]
  intro hmem
  have hnot := List.all_eq_true.mp h c hmem
  rw [hc] at hnot
  cases hnot

/-- Whether no character of a stretch starts a quote or a comment, whatever follows the stretch. -/
def isPlain (before : Option Char) : List Char → Bool
  | [] => true
  | c :: rest =>
    (isQuiet c || (c == '-' && rest.head?.any (· != '-')) ||
      (c == '/' && rest.head?.any (· != '*')) || (c == '$' && endsWordBeforeDollar before)) &&
      isPlain (some c) rest

theorem segmentAt_of_isQuiet (h : isQuiet c = true) :
    segmentAt rules before c rest = (.code, 0) := by
  simp only [isQuiet, List.mem_cons, List.not_mem_nil, or_false, not_or, decide_eq_true_eq] at h
  simp [segmentAt, h]

/-- Outside quotes a dash not before a dash is code. -/
theorem segmentAt_dash (h : rest.head? ≠ some '-') :
    segmentAt rules before '-' rest = (.code, 0) := by
  simp [segmentAt, h]

theorem segmentAt_slash (h : rest.head? ≠ some '*') :
    segmentAt rules before '/' rest = (.code, 0) := by
  simp [segmentAt, h]

theorem segmentAt_dollar (h : endsWordBeforeDollar before = true) :
    segmentAt rules before '$' rest = (.code, 0) := by
  simp [segmentAt, h]

theorem isPlain_cons_iff {inside : List Char} :
    isPlain before (c :: inside) = true ↔
      (isQuiet c = true ∨ (c = '-' ∧ ∃ d tail, inside = d :: tail ∧ d ≠ '-') ∨
        (c = '/' ∧ ∃ d tail, inside = d :: tail ∧ d ≠ '*') ∨
        (c = '$' ∧ endsWordBeforeDollar before = true)) ∧ isPlain (some c) inside = true := by
  rw [isPlain, Bool.and_eq_true]
  cases inside with
  | nil => simp
  | cons d tail => simp [or_assoc]

/-- A plain stretch is covered by segments of code. -/
theorem covers_of_isPlain {inside : List Char} (h : isPlain before inside = true)
    (haccept : accept .code = true) (rest : List Char) :
    covers rules accept before 0 inside.length (inside ++ rest) = true := by
  induction inside generalizing before with
  | nil => rfl
  | cons c inside ih =>
      obtain ⟨hc, hplain⟩ := isPlain_cons_iff.mp h
      refine covers_cons_code ?_ haccept (ih hplain)
      rcases hc with hquiet | ⟨rfl, d, tail, rfl, hd⟩ | ⟨rfl, d, tail, rfl, hd⟩ | ⟨rfl, hword⟩
      · exact segmentAt_of_isQuiet hquiet
      · exact segmentAt_dash (by simpa using hd)
      · exact segmentAt_slash (by simpa using hd)
      · exact segmentAt_dollar hword

theorem isPlain_of_isQuiet {inside : List Char} (h : ∀ c ∈ inside, isQuiet c = true) :
    isPlain before inside = true := by
  induction inside generalizing before with
  | nil => rfl
  | cons c inside ih =>
      refine isPlain_cons_iff.mpr ⟨.inl (h c List.mem_cons_self), ih ?_⟩
      intro d hmem
      exact h d (List.mem_cons_of_mem c hmem)

theorem isPlain_append {inside other : List Char} (h : isPlain before inside = true)
    (hother : ∀ before, isPlain before other = true) : isPlain before (inside ++ other) = true := by
  induction inside generalizing before with
  | nil => exact hother before
  | cons c inside ih =>
      obtain ⟨hc, hplain⟩ := isPlain_cons_iff.mp h
      rw [List.cons_append]
      refine isPlain_cons_iff.mpr ⟨?_, ih hplain⟩
      -- a mark of the first stretch has the next character in that stretch too
      rcases hc with hquiet | ⟨rfl, d, tail, rfl, hd⟩ | ⟨rfl, d, tail, rfl, hd⟩ | ⟨rfl, hword⟩
      · exact .inl hquiet
      · exact .inr (.inl ⟨rfl, d, tail ++ other, rfl, hd⟩)
      · exact .inr (.inr (.inl ⟨rfl, d, tail ++ other, rfl, hd⟩))
      · exact .inr (.inr (.inr ⟨rfl, hword⟩))

end

end TableLineage.Sql
