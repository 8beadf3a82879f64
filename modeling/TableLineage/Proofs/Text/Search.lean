import Mathlib.Data.List.Infix
import TableLineage.Text.Search

/-!
# Patterns and lines in a text

* A pattern is found where it first stands (`findPattern?_eq_some_iff`).
* After a replacement that shares no character with the pattern the pattern is gone
  (`not_infix_replaceFrom`), and whatever shares no character with the replacement stood in the text
  before (`infix_of_infix_replaceFrom`).
* If a character was replaced by a word that cannot begin within itself, the replacement of the word
  by the character gives the text back, provided that the word did not stand in the text already
  (`replaceFrom_replaceFrom`).
* The lines of a text are pieces of it without line feeds (`infix_of_mem_lines`,
  `lineFeed_notMem_of_mem_lines`), and lines that are written one after the other are read back,
  with a line feed after each (`lines_flatMap`) or between them (`lines_intercalate`).
-/

namespace TableLineage.Text

/-! ## Pieces that avoid a character -/

section Avoiding

variable {piece before after : List Char} {c : Char}

/-- What is at the start of a text and avoids a character ends before that character. -/
theorem prefix_append_cons_iff (hc : c ∉ piece) : piece <+: before ++ c :: after ↔
    piece <+: before := by
  refine ⟨?_, fun h => h.trans (List.prefix_append _ _)⟩
  intro h
  rcases List.prefix_or_prefix_of_prefix h (List.prefix_append before (c :: after)) with h' | h'
  · exact h'
  · obtain ⟨more, rfl⟩ := h'
    rw [List.prefix_append_right_inj] at h
    cases more with
    | nil => simp
    | cons d more =>
        obtain ⟨rfl, -⟩ := List.cons_prefix_cons.mp h
        simp at hc

/-- What stands in a text and avoids a character stands on one side of that character. -/
theorem infix_append_cons_iff (hc : c ∉ piece) :
    piece <:+: before ++ c :: after ↔ piece <:+: before ∨ piece <:+: after := by
  induction before with
  | nil =>
      rw [List.nil_append, List.infix_cons_iff, ← List.nil_append (c :: after),
        prefix_append_cons_iff hc]
      refine or_congr ?_ Iff.rfl
      rw [List.prefix_nil, List.infix_nil]
  | cons d before ih =>
      calc piece <:+: d :: before ++ c :: after
          ↔ piece <+: d :: before ++ c :: after ∨ piece <:+: before ++ c :: after :=
            List.infix_cons_iff
        _ ↔ piece <+: d :: before ∨ piece <:+: before ∨ piece <:+: after := by
            rw [prefix_append_cons_iff hc, ih]
        _ ↔ piece <:+: d :: before ∨ piece <:+: after := by
            rw [← or_assoc, ← List.infix_cons_iff]

/-- What stands in a text and avoids its first character stands after it. -/
theorem infix_cons_iff_of_notMem (hc : c ∉ piece) : piece <:+: c :: after ↔ piece <:+: after := by
  rw [← List.nil_append (c :: after), infix_append_cons_iff hc, List.infix_nil]
  exact or_iff_right_of_imp fun h => h ▸ List.nil_infix

theorem infix_append_iff_of_disjoint (h : ∀ d ∈ before, d ∉ piece) :
    piece <:+: before ++ after ↔ piece <:+: after := by
  induction before with
  | nil => rfl
  | cons d before ih =>
      have hbefore : ∀ e ∈ before, e ∉ piece := fun e he => h e (List.mem_cons_of_mem d he)
      rw [List.cons_append, infix_cons_iff_of_notMem (h d List.mem_cons_self), ih hbefore]

end Avoiding

/-! ## Search -/

section Search

variable {pattern text rest : List Char} {c : Char} {position : Nat}

theorem findPattern?_of_isPrefix (h : pattern <+: text) : findPattern? pattern text = some 0 := by
  cases text with
  | nil => rw [List.prefix_nil.mp h]; rfl
  | cons c rest => rw [findPattern?, if_pos (List.isPrefixOf_iff_prefix.mpr h)]

theorem findPattern?_of_not_isPrefix (h : ¬ pattern <+: c :: rest) :
    findPattern? pattern (c :: rest) = (findPattern? pattern rest).map (· + 1) := by
  rw [findPattern?, if_neg (mt List.isPrefixOf_iff_prefix.mp h)]

/-- The first place of a pattern in a text. -/
structure IsFirstPlace (pattern text : List Char) (position : Nat) : Prop where
  le_length : position ≤ text.length
  found : pattern <+: text.drop position
  first : ∀ earlier < position, ¬ pattern <+: text.drop earlier

theorem isFirstPlace_iff_of_isPrefix (h : pattern <+: text) :
    IsFirstPlace pattern text position ↔ position = 0 := by
  constructor
  · intro hplace
    by_contra hne
    exact hplace.first 0 (Nat.pos_of_ne_zero hne) h
  · rintro rfl
    exact ⟨Nat.zero_le _, h, fun earlier hlt => absurd hlt (Nat.not_lt_zero earlier)⟩

theorem isFirstPlace_cons_iff (h : ¬ pattern <+: c :: rest) :
    IsFirstPlace pattern (c :: rest) position ↔
      ∃ next, IsFirstPlace pattern rest next ∧ next + 1 = position := by
  constructor
  · intro hplace
    cases position with
    | zero => exact absurd hplace.found h
    | succ next =>
        refine ⟨next, ⟨Nat.le_of_succ_le_succ hplace.le_length, hplace.found, ?_⟩, rfl⟩
        intro earlier hlt
        exact hplace.first (earlier + 1) (Nat.succ_lt_succ hlt)
  · rintro ⟨next, hplace, rfl⟩
    refine ⟨Nat.succ_le_succ hplace.le_length, hplace.found, ?_⟩
    rintro (- | earlier) hlt
    · exact h
    · exact hplace.first earlier (Nat.lt_of_succ_lt_succ hlt)

/-- A pattern is found where it first stands. -/
theorem findPattern?_eq_some_iff :
    findPattern? pattern text = some position ↔ IsFirstPlace pattern text position := by
  induction text generalizing position with
  | nil =>
      by_cases hhere : pattern <+: []
      · rw [findPattern?_of_isPrefix hhere, isFirstPlace_iff_of_isPrefix hhere, Option.some.injEq,
          eq_comm]
      · have hne : pattern ≠ [] := mt List.prefix_nil.mpr hhere
        refine iff_of_false (by simp [findPattern?, hne]) fun hplace => hhere ?_
        rw [← List.drop_nil (i := position)]
        exact hplace.found
  | cons c rest ih =>
      by_cases hhere : pattern <+: c :: rest
      · rw [findPattern?_of_isPrefix hhere, isFirstPlace_iff_of_isPrefix hhere, Option.some.injEq,
          eq_comm]
      · rw [findPattern?_of_not_isPrefix hhere, isFirstPlace_cons_iff hhere, Option.map_eq_some_iff]
        simp only [ih]

/-- A pattern that stands nowhere in a text is found after the text and a character that the pattern
does not hold. -/
theorem findPattern?_append_cons (hc : c ∉ pattern) (htext : ¬ pattern <:+: text)
    (hrest : pattern <+: rest) :
    findPattern? pattern (text ++ c :: rest) = some (text.length + 1) := by
  rw [findPattern?_eq_some_iff]
  refine ⟨by simp, by simpa using hrest, ?_⟩
  intro earlier hlt hhere
  rw [List.drop_append_of_le_length (Nat.le_of_lt_succ hlt), prefix_append_cons_iff hc] at hhere
  exact htext (hhere.isInfix.trans (List.drop_suffix earlier text).isInfix)

/-- What is before the first place of a pattern does not hold the pattern. -/
theorem not_infix_take_of_findPattern? (hpattern : pattern ≠ [])
    (h : findPattern? pattern text = some position) : ¬ pattern <:+: text.take position := by
  rintro ⟨before, after, heq⟩
  obtain ⟨-, -, hfirst⟩ := findPattern?_eq_some_iff.mp h
  have hlength := congrArg List.length heq
  have hpos := List.length_pos_iff.mpr hpattern
  simp only [List.length_append, List.length_take] at hlength
  apply hfirst before.length (by omega)
  rw [← List.take_append_drop position text, ← heq]
  simp

theorem findPattern?_eq_none_iff (hpattern : pattern ≠ []) :
    findPattern? pattern text = none ↔ ¬ pattern <:+: text := by
  induction text with
  | nil => simp [findPattern?, hpattern]
  | cons c rest ih =>
      rw [List.infix_cons_iff, not_or]
      by_cases hhere : pattern <+: c :: rest
      · rw [findPattern?_of_isPrefix hhere]
        simp [hhere]
      · rw [findPattern?_of_not_isPrefix hhere, Option.map_eq_none_iff, ih]
        simp [hhere]

end Search

/-! ## Replacement -/

section Replacement

variable {pattern replacement text rest piece : List Char} {c d : Char}

theorem replaceFrom_skip (skip : Nat) (text : List Char) :
    replaceFrom pattern replacement skip text =
      replaceFrom pattern replacement 0 (text.drop skip) := by
  induction text generalizing skip with
  | nil => cases skip <;> rfl
  | cons c rest ih =>
      cases skip with
      | zero => rfl
      | succ skip => exact ih skip

/-- An occurrence at the start is replaced as a whole. -/
theorem replaceFrom_append (hpattern : pattern ≠ []) (rest : List Char) :
    replaceFrom pattern replacement 0 (pattern ++ rest) =
      replacement ++ replaceFrom pattern replacement 0 rest := by
  cases pattern with
  | nil => exact absurd rfl hpattern
  | cons d pattern =>
      have hhere : (d :: pattern).isPrefixOf (d :: (pattern ++ rest)) = true :=
        List.isPrefixOf_iff_prefix.mpr (List.prefix_append (d :: pattern) rest)
      rw [List.cons_append, replaceFrom, if_pos hhere, replaceFrom_skip]
      simp

theorem replaceFrom_of_not_isPrefix (h : ¬ pattern <+: c :: rest) :
    replaceFrom pattern replacement 0 (c :: rest) =
      c :: replaceFrom pattern replacement 0 rest := by
  rw [replaceFrom, if_neg (mt List.isPrefixOf_iff_prefix.mp h)]

theorem replaceFrom_eq_nil_iff (hreplacement : replacement ≠ []) :
    replaceFrom pattern replacement 0 text = [] ↔ text = [] := by
  cases text with
  | nil => simp [replaceFrom]
  | cons c rest =>
      rw [replaceFrom]
      split <;> simp [hreplacement]

/-- The texts through which a replacement goes: an occurrence of the pattern is skipped as a whole,
and any other character by itself. -/
theorem replacement_induction {motive : List Char → Prop} (hpattern : pattern ≠ [])
    (nil : motive [])
    (occurrence : ∀ rest, motive rest → motive (pattern ++ rest))
    (other : ∀ c rest, ¬ pattern <+: c :: rest → motive rest → motive (c :: rest))
    (text : List Char) : motive text := by
  induction hlength : text.length using Nat.strong_induction_on generalizing text with
  | _ n ih =>
      cases text with
      | nil => exact nil
      | cons c rest =>
          by_cases hhere : pattern <+: c :: rest
          · -- an occurrence is not empty, so the text behind it is shorter
            obtain ⟨after, hafter⟩ := hhere
            have hpos := List.length_pos_iff.mpr hpattern
            have hless : after.length < n := by
              rw [← hlength, ← hafter, List.length_append]
              omega
            rw [← hafter]
            exact occurrence after (ih after.length hless after rfl)
          · have hless : rest.length < n := by rw [← hlength]; simp
            exact other c rest hhere (ih rest.length hless rest rfl)

theorem replaceFrom_of_not_infix (hpattern : pattern ≠ []) (h : ¬ pattern <:+: text) :
    replaceFrom pattern replacement 0 text = text := by
  induction text using replacement_induction hpattern with
  | nil => rfl
  | occurrence rest => exact absurd (List.prefix_append pattern rest).isInfix h
  | other c rest hhere ih =>
      rw [replaceFrom_of_not_isPrefix hhere, ih (mt List.infix_cons h)]

/-- What comes out at the start of a replacement and avoids the first character of the replacement
was there before. -/
theorem prefix_of_prefix_replaceFrom (hpattern : pattern ≠ []) (hd : d ∉ piece)
    (h : piece <+: replaceFrom pattern (d :: replacement) 0 text) : piece <+: text := by
  induction text using replacement_induction hpattern generalizing piece with
  | nil => exact h
  | occurrence rest =>
      rw [replaceFrom_append hpattern] at h
      cases piece with
      | nil => exact List.nil_prefix
      | cons e piece =>
          obtain ⟨rfl, -⟩ := List.cons_prefix_cons.mp h
          exact absurd List.mem_cons_self hd
  | other c rest hhere ih =>
      rw [replaceFrom_of_not_isPrefix hhere] at h
      cases piece with
      | nil => exact List.nil_prefix
      | cons e piece =>
          obtain ⟨rfl, htail⟩ := List.cons_prefix_cons.mp h
          exact List.cons_prefix_cons.mpr ⟨rfl, ih (mt (List.mem_cons_of_mem e) hd) htail⟩

/-- What comes out of a replacement and shares no character with the replacement was there
before. -/
theorem infix_of_infix_replaceFrom (hpattern : pattern ≠ [])
    (hpiece : ∀ e ∈ d :: replacement, e ∉ piece)
    (h : piece <:+: replaceFrom pattern (d :: replacement) 0 text) : piece <:+: text := by
  induction text using replacement_induction hpattern with
  | nil => exact h
  | occurrence rest ih =>
      rw [replaceFrom_append hpattern, infix_append_iff_of_disjoint hpiece] at h
      exact (ih h).trans (List.suffix_append pattern rest).isInfix
  | other c rest hhere ih =>
      have hd : d ∉ piece := hpiece d List.mem_cons_self
      have hstart : piece <+: replaceFrom pattern (d :: replacement) 0 (c :: rest) →
          piece <+: c :: rest := prefix_of_prefix_replaceFrom hpattern hd
      rw [replaceFrom_of_not_isPrefix hhere] at h hstart
      rcases List.infix_cons_iff.mp h with h | h
      · exact (hstart h).isInfix
      · exact List.infix_cons (ih h)

/-- A replacement that shares no character with the pattern leaves no occurrence of it. -/
theorem not_infix_replaceFrom (hpattern : pattern ≠ [])
    (hdisjoint : ∀ e ∈ d :: replacement, e ∉ pattern) :
    ¬ pattern <:+: replaceFrom pattern (d :: replacement) 0 text := by
  induction text using replacement_induction hpattern with
  | nil => rwa [replaceFrom, List.infix_nil]
  | occurrence rest ih =>
      rwa [replaceFrom_append hpattern, infix_append_iff_of_disjoint hdisjoint]
  | other c rest hhere ih =>
      have hd : d ∉ pattern := hdisjoint d List.mem_cons_self
      have hstart : pattern <+: replaceFrom pattern (d :: replacement) 0 (c :: rest) →
          pattern <+: c :: rest := prefix_of_prefix_replaceFrom hpattern hd
      rw [replaceFrom_of_not_isPrefix hhere] at hstart ⊢
      rw [List.infix_cons_iff]
      exact not_or.mpr ⟨mt hstart hhere, ih⟩

/-- The characters of a replacement come from the replacement or from the text. -/
theorem mem_of_mem_replaceFrom (hpattern : pattern ≠ [])
    (h : c ∈ replaceFrom pattern replacement 0 text) : c ∈ replacement ∨ c ∈ text := by
  induction text using replacement_induction hpattern with
  | nil => exact .inr h
  | occurrence rest ih =>
      rw [replaceFrom_append hpattern, List.mem_append] at h
      rcases h with h | h
      · exact .inl h
      · exact (ih h).imp_right (List.mem_append_right _)
  | other d rest hhere ih =>
      rw [replaceFrom_of_not_isPrefix hhere, List.mem_cons] at h
      rcases h with rfl | h
      · exact .inr List.mem_cons_self
      · exact (ih h).imp_right (List.mem_cons_of_mem d)

/-- If `c` was replaced by a word whose first character does not come again in it, the replacement
of the word by `c` gives the text back, provided that the word did not stand in the text. -/
theorem replaceFrom_replaceFrom {word : List Char} (hd : d ∉ word) (h : ¬ d :: word <:+: text) :
    replaceFrom (d :: word) [c] 0 (replaceFrom [c] (d :: word) 0 text) = text := by
  have hc : [c] ≠ [] := List.cons_ne_nil c []
  have hword : d :: word ≠ [] := List.cons_ne_nil d word
  induction text using replacement_induction hc with
  | nil => rfl
  | occurrence rest ih =>
      have hrest : ¬ d :: word <:+: rest := mt List.infix_cons h
      rw [replaceFrom_append hc, replaceFrom_append hword, ih hrest]
  | other e rest hhere ih =>
      have hrest : ¬ d :: word <:+: rest := mt List.infix_cons h
      have hstart : ¬ d :: word <+: e :: replaceFrom [c] (d :: word) 0 rest := by
        intro hstart
        obtain ⟨rfl, htail⟩ := List.cons_prefix_cons.mp hstart
        have hkept := prefix_of_prefix_replaceFrom hc hd htail
        exact h (List.cons_prefix_cons.mpr ⟨rfl, hkept⟩).isInfix
      rw [replaceFrom_of_not_isPrefix hhere, replaceFrom_of_not_isPrefix hstart, ih hrest]

/-- A pattern of one character is replaced character by character. -/
theorem replaceFrom_singleton (c : Char) (replacement text : List Char) :
    replaceFrom [c] replacement 0 text = text.flatMap fun d =>
      if d = c then replacement else [d] := by
  induction text with
  | nil => rfl
  | cons d text ih =>
      rw [List.flatMap_cons]
      by_cases hd : d = c
      · subst hd
        rw [if_pos rfl, ← ih]
        exact replaceFrom_append (List.cons_ne_nil d []) text
      · have hstart : ¬ [c] <+: d :: text := by simp [Ne.symm hd]
        rw [if_neg hd, replaceFrom_of_not_isPrefix hstart, ih, List.singleton_append]

end Replacement

/-! ## Lines -/

section Lines

variable {α : Type} {p : α → Bool} {a : α} {piece as : List α} {line text : List Char}

theorem splitOnP_append_cons (hpiece : ∀ b ∈ piece, p b = false) (ha : p a = true) (as : List α) :
    splitOnP p (piece ++ a :: as) = piece :: splitOnP p as := by
  induction piece with
  | nil => rw [List.nil_append, splitOnP, if_pos ha]
  | cons b piece ih =>
      have hb : ¬ p b = true := by simp [hpiece b List.mem_cons_self]
      have hrest := ih fun c hc => hpiece c (List.mem_cons_of_mem b hc)
      rw [List.cons_append, splitOnP, if_neg hb, hrest]

/-- The pieces of a list are the one at its start and others in it. -/
theorem splitOnP_eq_cons (p : α → Bool) (as : List α) :
    ∃ first others, splitOnP p as = first :: others ∧ first <+: as ∧
      ∀ piece ∈ others, piece <:+: as := by
  induction as with
  | nil => exact ⟨[], [], rfl, List.nil_prefix, by simp⟩
  | cons a as ih =>
      obtain ⟨first, others, heq, hfirst, hothers⟩ := ih
      rw [splitOnP, heq]
      split
      · refine ⟨[], first :: others, rfl, List.nil_prefix, ?_⟩
        intro piece hpiece
        rcases List.mem_cons.mp hpiece with rfl | hpiece
        · exact List.infix_cons hfirst.isInfix
        · exact List.infix_cons (hothers piece hpiece)
      · refine ⟨a :: first, others, rfl, List.cons_prefix_cons.mpr ⟨rfl, hfirst⟩, ?_⟩
        exact fun piece hpiece => List.infix_cons (hothers piece hpiece)

/-- The pieces are those of the library's own function, whose lemmas apply to them. -/
theorem splitOnP_eq (p : α → Bool) (as : List α) : splitOnP p as = as.splitOnP p := by
  induction as with
  | nil => rfl
  | cons a as ih =>
      obtain ⟨first, others, heq, -, -⟩ := splitOnP_eq_cons p as
      rw [splitOnP, List.splitOnP_cons_eq_if_modifyHead, ← ih, heq]
      rfl

/-- Nothing but the separators is lost between the pieces. -/
theorem flatten_splitOnP (p : α → Bool) (as : List α) :
    (splitOnP p as).flatten = as.filter fun a => !p a := by
  induction as with
  | nil => rfl
  | cons a as ih =>
      obtain ⟨first, others, heq, -, -⟩ := splitOnP_eq_cons p as
      rw [heq] at ih
      cases ha : p a with
      | true => simp [splitOnP, ha, heq, ← ih]
      | false => simp [splitOnP, ha, heq, ← ih]

theorem infix_of_mem_splitOnP (h : piece ∈ splitOnP p as) : piece <:+: as := by
  obtain ⟨first, others, heq, hfirst, hothers⟩ := splitOnP_eq_cons p as
  rw [heq, List.mem_cons] at h
  rcases h with rfl | h
  · exact hfirst.isInfix
  · exact hothers piece h

theorem not_of_mem_splitOnP (h : piece ∈ splitOnP p as) (ha : a ∈ piece) : p a = false := by
  induction as generalizing piece with
  | nil =>
      obtain rfl := List.mem_singleton.mp h
      exact absurd ha List.not_mem_nil
  | cons b as ih =>
      obtain ⟨first, others, heq, -, -⟩ := splitOnP_eq_cons p as
      rw [heq] at ih
      rw [splitOnP, heq] at h
      split at h
      -- the element ends a piece, so an empty piece is put in front
      case isTrue =>
          rcases List.mem_cons.mp h with rfl | h
          · exact absurd ha List.not_mem_nil
          · exact ih h ha
      -- the element goes to the first piece
      case isFalse hb =>
          rcases List.mem_cons.mp h with rfl | h
          · rcases List.mem_cons.mp ha with rfl | ha
            · exact eq_false_of_ne_true hb
            · exact ih List.mem_cons_self ha
          · exact ih (List.mem_cons_of_mem first h) ha

/-- A line of a text begins a piece between line feeds. -/
theorem exists_of_mem_lines (h : line ∈ lines text) :
    ∃ piece ∈ splitOnP (· == '\n') text, line <+: piece := by
  -- a line that ends is a piece, without a carriage return at its end
  have hended : ∀ pieces : List (List Char),
      line ∈ pieces.dropLast.map (fun l => if l.getLast? = some '\r' then l.dropLast else l) →
        ∃ piece ∈ pieces, line <+: piece := by
    intro pieces hline
    obtain ⟨piece, hpiece, rfl⟩ := List.mem_map.mp hline
    refine ⟨piece, List.dropLast_subset pieces hpiece, ?_⟩
    split
    · exact List.dropLast_prefix piece
    · exact List.prefix_refl piece
  rw [lines] at h
  split at h
  · exact hended _ h
  · exact hended _ h
  · -- the last piece is a line of its own, with nothing cut
    rename_i last hlast
    rcases List.mem_append.mp h with h | h
    · exact hended _ h
    · obtain rfl := List.mem_singleton.mp h
      exact ⟨line, List.mem_of_getLast? hlast, List.prefix_refl line⟩

theorem infix_of_mem_lines (h : line ∈ lines text) : line <:+: text := by
  obtain ⟨piece, hpiece, hline⟩ := exists_of_mem_lines h
  exact hline.isInfix.trans (infix_of_mem_splitOnP hpiece)

theorem lineFeed_notMem_of_mem_lines (h : line ∈ lines text) : '\n' ∉ line := by
  obtain ⟨piece, hpiece, hline⟩ := exists_of_mem_lines h
  intro hmem
  have hfeed := not_of_mem_splitOnP hpiece (hline.subset hmem)
  simp at hfeed

/-- The pieces of texts without line feeds that are written one after the other, each with a line
feed, are these texts and an empty piece. -/
theorem splitOnP_flatMap_lineFeed {written : List (List Char)}
    (hfeed : ∀ line ∈ written, '\n' ∉ line) :
    splitOnP (· == '\n') (written.flatMap (· ++ ['\n'])) = written ++ [[]] := by
  induction written with
  | nil => rfl
  | cons line written ih =>
      have hline : ∀ c ∈ line, (c == '\n') = false := by
        intro c hc
        rw [beq_eq_false_iff_ne]
        rintro rfl
        exact hfeed line List.mem_cons_self hc
      have hrest := ih fun l hl => hfeed l (List.mem_cons_of_mem line hl)
      calc splitOnP (· == '\n') ((line :: written).flatMap (· ++ ['\n']))
          = splitOnP (· == '\n') (line ++ '\n' :: written.flatMap (· ++ ['\n'])) := by
            rw [List.flatMap_cons, List.append_assoc, List.singleton_append]
        _ = line :: splitOnP (· == '\n') (written.flatMap (· ++ ['\n'])) :=
            splitOnP_append_cons hline rfl _
        _ = line :: written ++ [[]] := by rw [hrest, List.cons_append]

/-- Lines that are written one after the other, each with a line feed, are read back. -/
theorem lines_flatMap {written : List (List Char)} (hfeed : ∀ line ∈ written, '\n' ∉ line)
    (hreturn : ∀ line ∈ written, line.getLast? ≠ some '\r') :
    lines (written.flatMap (· ++ ['\n'])) = written := by
  have hended : written.map (fun l => if l.getLast? = some '\r' then l.dropLast else l) = written :=
    calc written.map (fun l => if l.getLast? = some '\r' then l.dropLast else l)
        = written.map fun line => line :=
          List.map_congr_left fun line hline => if_neg (hreturn line hline)
      _ = written := List.map_id' written
  rw [lines, splitOnP_flatMap_lineFeed hfeed, List.dropLast_concat, List.getLast?_concat]
  exact hended

/-- With a carriage return and a line feed after each, all lines are read back. -/
theorem lines_flatMap_return {written : List (List Char)} (hfeed : ∀ line ∈ written, '\n' ∉ line) :
    lines (written.flatMap (· ++ ['\r', '\n'])) = written := by
  have hended : ∀ line : List Char, (if (line ++ ['\r']).getLast? = some '\r' then
      (line ++ ['\r']).dropLast else line ++ ['\r']) = line := by
    intro line
    rw [List.getLast?_concat, if_pos rfl, List.dropLast_concat]
  have hreturns : ∀ line ∈ written.map (· ++ ['\r']), '\n' ∉ line := by
    refine List.forall_mem_map.mpr fun line hline => ?_
    simpa using hfeed line hline
  have hwritten : written.flatMap (· ++ ['\r', '\n']) =
      (written.map (· ++ ['\r'])).flatMap (· ++ ['\n']) := by
    simp [List.flatMap_map]
  rw [hwritten, lines, splitOnP_flatMap_lineFeed hreturns, List.dropLast_concat,
    List.getLast?_concat, List.map_map]
  calc written.map ((fun l => if l.getLast? = some '\r' then l.dropLast else l) ∘ (· ++ ['\r']))
      = written.map fun line => line := List.map_congr_left fun line _ => hended line
    _ = written := List.map_id' written

/-- Lines that are written with line feeds between them are read back, if the last one is not
empty. -/
theorem lines_intercalate {written : List (List Char)} {last : List Char}
    (hlast : written.getLast? = some last) (hne : last ≠ []) (hfeed : ∀ line ∈ written, '\n' ∉ line)
    (hreturn : ∀ line ∈ written, line.getLast? ≠ some '\r') :
    lines (['\n'].intercalate written) = written := by
  have hwritten : written ≠ [] := by
    rintro rfl
    cases hlast
  have hpieces : splitOnP (· == '\n') (['\n'].intercalate written) = written := by
    rw [splitOnP_eq]
    exact List.splitOn_intercalate '\n' hfeed hwritten
  have hended : written.dropLast.map (fun l => if l.getLast? = some '\r' then l.dropLast else l) =
      written.dropLast :=
    (List.map_congr_left fun line hline =>
      if_neg (hreturn line (List.dropLast_subset written hline))).trans (List.map_id' _)
  obtain ⟨c, rest, rfl⟩ := List.exists_cons_of_ne_nil hne
  rw [lines, hpieces, hended, hlast]
  exact List.dropLast_append_getLast? _ hlast

end Lines

end TableLineage.Text
