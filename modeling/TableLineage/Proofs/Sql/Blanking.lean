import TableLineage.Proofs.Sql.Divergence
import TableLineage.Proofs.Sql.Masked

/-!
# Blanked comments

A text whose segments are all closed masks itself when its comments are blanked
(`masked_strippedFrom`): it stays as it is up to the first comment, where it gets a space.  Blanking
keeps the ends of lines, so a line comment ends on its line (`strippedFrom_line`), also one
that the stripper takes for code and comments.
-/

namespace TableLineage.Sql

section

variable {rules : QuoteRules} {before : Option Char} {c : Char} {text rest : List Char}

/-- The text from a place on with its comments blanked. -/
def strippedFrom (rules : QuoteRules) (before : Option Char) (text : List Char) : List Char :=
  (segmentsFrom rules before 0 text).flatMap Segment.stripped

/-- Whether all segments of the text from a place on are closed. -/
def IsClosed (rules : QuoteRules) (before : Option Char) (text : List Char) : Prop :=
  ∀ segment ∈ segmentsFrom rules before 0 text, segment.kind.isClosed = true

/-! ## Text of a few segments -/

theorem strippedFrom_nil : strippedFrom rules before [] = [] := rfl

theorem isClosed_nil : IsClosed rules before [] := by
  intro segment hmem
  cases hmem

theorem strippedFrom_cons_code (h : segmentAt rules before c rest = (.code, 0)) :
    strippedFrom rules before (c :: rest) = c :: strippedFrom rules (some c) rest := by
  unfold strippedFrom
  rw [segmentsFrom_cons, h]
  rfl

theorem isClosed_cons_code (h : segmentAt rules before c rest = (.code, 0)) :
    IsClosed rules before (c :: rest) ↔ IsClosed rules (some c) rest := by
  unfold IsClosed
  rw [segmentsFrom_cons, h]
  simp [SegmentKind.isClosed]

theorem strippedFrom_comment {more : Nat}
    (h : segmentAt rules before c rest = (.comment, more)) :
    strippedFrom rules before (c :: rest) =
      (c :: rest.take more).flatMap blanked ++
        strippedFrom rules (lastCharacter (some c) (rest.take more)) (rest.drop more) := by
  unfold strippedFrom
  rw [segmentsFrom_cons, h, List.flatMap_cons, segmentsFrom_skip]
  rfl

theorem isClosed_comment {more : Nat}
    (h : segmentAt rules before c rest = (.comment, more)) :
    IsClosed rules before (c :: rest) ↔
      IsClosed rules (lastCharacter (some c) (rest.take more)) (rest.drop more) := by
  unfold IsClosed
  rw [segmentsFrom_cons, h, segmentsFrom_skip]
  simp [SegmentKind.isClosed]

/-- Segments that cover the start of a text are stripped on their own. -/
theorem strippedFrom_of_covers {accept : SegmentKind → Bool} {count : Nat}
    (h : covers rules accept before 0 count text = true) :
    ∃ cut : List Segment, (∀ segment ∈ cut, accept segment.kind = true) ∧
      cut.flatMap Segment.text = text.take count ∧
      strippedFrom rules before text = cut.flatMap Segment.stripped ++
        strippedFrom rules (lastCharacter before (text.take count)) (text.drop count) ∧
      ((∀ segment ∈ cut, segment.kind.isClosed = true) →
        IsClosed rules (lastCharacter before (text.take count)) (text.drop count) →
        IsClosed rules before text) := by
  obtain ⟨cut, hcut, haccept, htext⟩ := segmentsFrom_of_covers h
  refine ⟨cut, haccept, htext, ?_, ?_⟩
  · unfold strippedFrom
    rw [hcut, List.flatMap_append]
  · intro hclosed hrest segment hmem
    rw [hcut, List.mem_append] at hmem
    exact hmem.elim (hclosed segment) (hrest segment)

theorem stripped_of_isKept {segment : Segment} (h : segment.kind.isKept = true) :
    segment.stripped = segment.text := by
  unfold Segment.stripped
  cases hkind : segment.kind <;> simp [hkind, SegmentKind.isKept] at h ⊢

theorem isClosed_of_isKept {kind : SegmentKind} (h : kind.isKept = true) :
    kind.isClosed = true := by
  cases kind <;> simp [SegmentKind.isKept, SegmentKind.isClosed] at h ⊢

/-- Strings and code that cover the start of a text are left as they are. -/
theorem strippedFrom_of_isKept {count : Nat}
    (h : covers rules SegmentKind.isKept before 0 count text = true) :
    strippedFrom rules before text = text.take count ++
        strippedFrom rules (lastCharacter before (text.take count)) (text.drop count) ∧
      (IsClosed rules (lastCharacter before (text.take count)) (text.drop count) →
        IsClosed rules before text) := by
  obtain ⟨cut, hkept, htext, hstripped, hclosed⟩ := strippedFrom_of_covers h
  refine ⟨?_, hclosed fun segment hmem => isClosed_of_isKept (hkept segment hmem)⟩
  have hsame : cut.flatMap Segment.stripped = cut.flatMap Segment.text :=
    List.flatMap_congr fun segment hmem => stripped_of_isKept (hkept segment hmem)
  calc strippedFrom rules before text
      = cut.flatMap Segment.stripped ++
          strippedFrom rules (lastCharacter before (text.take count)) (text.drop count) := hstripped
    _ = cut.flatMap Segment.text ++
          strippedFrom rules (lastCharacter before (text.take count)) (text.drop count) := by
        rw [hsame]
    _ = text.take count ++
          strippedFrom rules (lastCharacter before (text.take count)) (text.drop count) := by
        rw [htext]

/-! ## Masked text -/

theorem kind_quotedOr_ne_comment {quote : Char} {close : Option Nat} {more : Nat} :
    quotedOr quote rest close ≠ (.comment, more) := by
  cases close <;> simp [quotedOr]

/-- A comment starts with two dashes or with a slash and a star. -/
theorem head_of_comment {more : Nat} (h : segmentAt rules before c rest = (.comment, more)) :
    (c = '-' ∧ ∃ tail, rest = '-' :: tail) ∨ (c = '/' ∧ ∃ tail, rest = '*' :: tail) := by
  unfold segmentAt at h
  split_ifs at h with hdashes hblock hsingle hescapes hdouble hbracket hdollar
  · exact .inl ⟨hdashes.1, List.head?_eq_some_iff.mp hdashes.2⟩
  · exact .inr ⟨hblock.1, List.head?_eq_some_iff.mp hblock.2⟩
  · exact absurd h kind_quotedOr_ne_comment
  · exact absurd h kind_quotedOr_ne_comment
  · exact absurd h kind_quotedOr_ne_comment
  · exact absurd h kind_quotedOr_ne_comment
  · split at h
    · cases h
    · simp only at h
      split at h <;> cases h
  · cases h

theorem masked_segmentsFrom {skip : Nat}
    (h : ∀ segment ∈ segmentsFrom rules before skip text, segment.kind.isClosed = true) :
    Masked (text.drop skip) ((segmentsFrom rules before skip text).flatMap Segment.stripped) := by
  induction text generalizing before skip with
  | nil =>
      rw [List.drop_nil]
      cases skip <;> exact .nil
  | cons c rest ih =>
      cases skip with
      | succ skip => exact ih h
      | zero =>
          rw [segmentsFrom_cons] at h ⊢
          have hrest := ih fun segment hmem => h segment (List.mem_cons_of_mem _ hmem)
          have hfirst := h _ List.mem_cons_self
          rw [List.flatMap_cons, List.drop_zero]
          cases hsegment : segmentAt rules before c rest with
          | mk kind more =>
              rw [hsegment] at hfirst hrest
              cases kind with
              | code | quoted =>
                  have htext : c :: rest = (c :: rest.take more) ++ rest.drop more := by
                    rw [List.cons_append, List.take_append_drop]
                  rw [htext]
                  exact hrest.append _
              | comment =>
                  -- from here on it does not matter what the segments are
                  obtain ⟨rfl, tail, rfl⟩ | ⟨rfl, tail, rfl⟩ := head_of_comment hsegment
                  · exact .dashes tail _
                  · exact .slash tail _
              | openComment | openQuote => cases hfirst

/-- A text whose segments are closed is masked by itself without comments. -/
theorem masked_strippedFrom (h : IsClosed rules before text) :
    Masked text (strippedFrom rules before text) :=
  masked_segmentsFrom h

theorem issuesFrom_of_isClosed {offset : Nat} {segments : List Segment}
    (h : ∀ segment ∈ segments, segment.kind.isClosed = true) : issuesFrom offset segments = [] := by
  induction segments generalizing offset with
  | nil => rfl
  | cons segment segments ih =>
      have hfirst := h segment List.mem_cons_self
      have hnone : segment.issueAt? offset = none := by
        unfold Segment.issueAt?
        cases hkind : segment.kind <;> simp [hkind, SegmentKind.isClosed] at hfirst ⊢
      rw [issuesFrom, hnone, ih fun other hmem => h other (List.mem_cons_of_mem _ hmem)]
      rfl

/-! ## Blanks -/

theorem blanked_ne_nil (c : Char) : blanked c ≠ [] := by
  unfold blanked
  split
  · simp
  · have hpos := c.utf8Size_pos
    rw [ne_eq, List.replicate_eq_nil_iff]
    omega

theorem mem_blanked {c d : Char} (h : d ∈ blanked c) : d = ' ' ∨ d = '\n' ∨ d = '\r' := by
  unfold blanked at h
  split at h
  · next hend =>
      obtain rfl := List.mem_singleton.mp h
      exact .inr hend
  · exact .inl (List.eq_of_mem_replicate h)

theorem mem_flatMap_blanked {d : Char} (h : d ∈ text.flatMap blanked) :
    d = ' ' ∨ d = '\n' ∨ d = '\r' := by
  obtain ⟨c, -, hmem⟩ := List.mem_flatMap.mp h
  exact mem_blanked hmem

theorem flatMap_blanked_ne_nil : (c :: text).flatMap blanked ≠ [] := by
  rw [List.flatMap_cons, ne_eq, List.append_eq_nil_iff, not_and]
  exact fun hnil => absurd hnil (blanked_ne_nil c)

/-! ## Lines -/

/-- The second text is the first with some of its characters blanked. -/
inductive PartlyBlanked : List Char → List Char → Prop
  | nil : PartlyBlanked [] []
  | keep (c : Char) {text other : List Char} (h : PartlyBlanked text other) :
      PartlyBlanked (c :: text) (c :: other)
  | blank (c : Char) {text other : List Char} (h : PartlyBlanked text other) :
      PartlyBlanked (c :: text) (blanked c ++ other)

namespace PartlyBlanked

variable {other : List Char}

theorem kept_append (inside : List Char) (h : PartlyBlanked text other) :
    PartlyBlanked (inside ++ text) (inside ++ other) := by
  induction inside with
  | nil => exact h
  | cons c inside ih => exact .keep c ih

theorem blanked_append (inside : List Char) (h : PartlyBlanked text other) :
    PartlyBlanked (inside ++ text) (inside.flatMap blanked ++ other) := by
  induction inside with
  | nil => exact h
  | cons c inside ih =>
      rw [List.flatMap_cons, List.append_assoc]
      exact .blank c ih

theorem flatMap_stripped (cut : List Segment) :
    PartlyBlanked (cut.flatMap Segment.text) (cut.flatMap Segment.stripped) := by
  induction cut with
  | nil => exact .nil
  | cons segment cut ih =>
      rw [List.flatMap_cons, List.flatMap_cons]
      unfold Segment.stripped
      cases segment.kind with
      | code | quoted => exact ih.kept_append _
      | comment | openComment | openQuote => exact ih.blanked_append _

/-- Blanking starts no line. -/
theorem lineFeed_not_mem (h : PartlyBlanked text other) (hline : '\n' ∉ text) : '\n' ∉ other := by
  induction h with
  | nil => exact hline
  | keep c h ih =>
      rw [List.mem_cons, not_or] at hline ⊢
      exact ⟨hline.1, ih hline.2⟩
  | blank c h ih =>
      rw [List.mem_cons, not_or] at hline
      rw [List.mem_append, not_or]
      refine ⟨?_, ih hline.2⟩
      unfold blanked
      split
      · simpa using hline.1
      · simp

/-- Blanking keeps the end of a line. -/
theorem exists_line {line : List Char} (hline : '\n' ∉ line)
    (h : PartlyBlanked (line ++ ['\n']) other) :
    ∃ blankedLine, other = blankedLine ++ ['\n'] ∧ '\n' ∉ blankedLine := by
  induction line generalizing other with
  | nil =>
      cases h with
      | keep c h =>
          cases h
          exact ⟨[], rfl, by simp⟩
      | blank c h =>
          cases h
          exact ⟨[], rfl, by simp⟩
  | cons c line ih =>
      rw [List.mem_cons, not_or] at hline
      cases h with
      | keep c h =>
          obtain ⟨blankedLine, rfl, hblanked⟩ := ih hline.2 h
          exact ⟨c :: blankedLine, rfl, by simp [hline.1, hblanked]⟩
      | blank c h =>
          obtain ⟨blankedLine, rfl, hblanked⟩ := ih hline.2 h
          refine ⟨blanked c ++ blankedLine, by rw [List.append_assoc], ?_⟩
          have hc : '\n' ∉ blanked c := by
            have hsingle : PartlyBlanked [c] (blanked c ++ []) := .blank c .nil
            rw [List.append_nil] at hsingle
            exact hsingle.lineFeed_not_mem (by simpa using hline.1)
          simp [hc, hblanked]

end PartlyBlanked

theorem takeWhile_of_lineFeed_not_mem {line : List Char} (h : '\n' ∉ line) (rest : List Char) :
    (line ++ rest).takeWhile (· != '\n') = line ++ rest.takeWhile (· != '\n') := by
  apply List.takeWhile_append_of_pos
  intro c hmem
  rw [bne_iff_ne]
  rintro rfl
  exact h hmem

theorem takeWhile_line (h : '\n' ∉ text) : text.takeWhile (· != '\n') = text := by
  have hline := takeWhile_of_lineFeed_not_mem h []
  rwa [List.append_nil, List.takeWhile_nil, List.append_nil] at hline

theorem takeWhile_line_append {line : List Char} (h : '\n' ∉ line) (rest : List Char) :
    (line ++ '\n' :: rest).takeWhile (· != '\n') = line := by
  rw [takeWhile_of_lineFeed_not_mem h, List.takeWhile_cons_of_neg (by decide), List.append_nil]

theorem take_line (line tail : List Char) :
    (line ++ '\n' :: tail).take (line.length + 1) = line ++ ['\n'] := by
  rw [List.take_length_add_append]
  rfl

theorem lineLength_of_lineFeed_not_mem (h : '\n' ∉ text) : lineLength text = text.length := by
  unfold lineLength
  simp only [takeWhile_line h, Nat.lt_irrefl, if_false]

theorem lineLength_append_lineFeed {line : List Char} (h : '\n' ∉ line) (rest : List Char) :
    lineLength (line ++ '\n' :: rest) = line.length + 1 := by
  unfold lineLength
  simp only [takeWhile_line_append h, List.length_append, List.length_cons]
  rw [if_pos (by omega)]

theorem lineLength_cons {c : Char} (h : c ≠ '\n') (rest : List Char) :
    lineLength (c :: rest) = lineLength rest + 1 := by
  by_cases hmem : '\n' ∈ rest
  · obtain ⟨line, tail, rfl, hline⟩ := List.eq_append_cons_of_mem hmem
    have hcons : '\n' ∉ c :: line := by simp [hline, h.symm]
    rw [← List.cons_append, lineLength_append_lineFeed hcons, lineLength_append_lineFeed hline,
      List.length_cons]
  · have hcons : '\n' ∉ c :: rest := by simp [hmem, h.symm]
    rw [lineLength_of_lineFeed_not_mem hcons, lineLength_of_lineFeed_not_mem hmem,
      List.length_cons]

theorem lineLength_append {lead : List Char} (h : '\n' ∉ lead) (rest : List Char) :
    lineLength (lead ++ rest) = lead.length + lineLength rest := by
  induction lead with
  | nil => rw [List.nil_append, List.length_nil, Nat.zero_add]
  | cons c lead ih =>
      rw [List.mem_cons, not_or] at h
      rw [List.cons_append, lineLength_cons (Ne.symm h.1), ih h.2, List.length_cons]
      omega

/-- The rest of a line that closed segments cover ends where its blanked form ends. -/
theorem strippedFrom_line
    (h : covers rules SegmentKind.isClosed before 0 (lineLength text) text = true) :
    ∃ line : List Char, strippedFrom rules before text = line ++
        strippedFrom rules (lastCharacter before (text.take (lineLength text)))
          (text.drop (lineLength text)) ∧
      lineLength (strippedFrom rules before text) = line.length ∧
      (IsClosed rules (lastCharacter before (text.take (lineLength text)))
        (text.drop (lineLength text)) → IsClosed rules before text) := by
  obtain ⟨cut, haccept, htext, hstripped, hclosed⟩ := strippedFrom_of_covers h
  have hblanked := PartlyBlanked.flatMap_stripped cut
  rw [htext] at hblanked
  refine ⟨cut.flatMap Segment.stripped, hstripped, ?_, hclosed haccept⟩
  rw [hstripped]
  -- the line has a line feed at its end, or it is the last one
  by_cases hmem : '\n' ∈ text
  · obtain ⟨line, tail, rfl, hline⟩ := List.eq_append_cons_of_mem hmem
    rw [lineLength_append_lineFeed hline, take_line] at hblanked
    obtain ⟨blankedLine, hother, hnone⟩ := hblanked.exists_line hline
    rw [hother, List.append_assoc, List.singleton_append, lineLength_append_lineFeed hnone,
      List.length_append, List.length_singleton]
  · rw [lineLength_of_lineFeed_not_mem hmem, List.take_length] at hblanked
    rw [lineLength_of_lineFeed_not_mem hmem, List.drop_length, strippedFrom_nil, List.append_nil]
    exact lineLength_of_lineFeed_not_mem (hblanked.lineFeed_not_mem hmem)

theorem segmentAt_dashes (h : rest.head? = some '-') :
    segmentAt rules before '-' rest = (.comment, (rest.takeWhile (· != '\n')).length) := by
  simp [segmentAt, h]

/-- The segments of a comment after two dashes end with its line. -/
theorem covers_dashes (h : rest.head? = some '-') :
    covers rules SegmentKind.isClosed before 0 (lineLength rest + 1) ('-' :: rest) = true := by
  have hle := (List.takeWhile_prefix (l := rest) (· != '\n')).length_le
  have hcomment : covers rules SegmentKind.isClosed before 0
      ((rest.takeWhile (· != '\n')).length + 1) ('-' :: rest) = true :=
    covers_segment (segmentAt_dashes h) rfl hle
  by_cases hmem : '\n' ∈ rest
  · obtain ⟨line, tail, rfl, hline⟩ := List.eq_append_cons_of_mem hmem
    rw [takeWhile_line_append hline] at hcomment
    rw [lineLength_append_lineFeed hline, Nat.add_right_comm]
    refine covers_add hcomment ?_
    rw [List.drop_succ_cons, List.drop_left]
    exact covers_cons_code (segmentAt_of_isQuiet (by decide)) rfl rfl
  · rw [takeWhile_line hmem] at hcomment
    rw [lineLength_of_lineFeed_not_mem hmem]
    exact hcomment

/-- A comment after two dashes leaves only blanks up to the end of its line, the line feed
included. -/
theorem strippedFrom_dashes (rules : QuoteRules) (before : Option Char)
    (h : rest.head? = some '-') :
    ∃ blanks : List Char, blanks ≠ [] ∧ (∀ c ∈ blanks, c = ' ' ∨ c = '\n' ∨ c = '\r') ∧
      strippedFrom rules before ('-' :: rest) = blanks ++
        strippedFrom rules (lastCharacter (some '-') (rest.take (lineLength rest)))
          (rest.drop (lineLength rest)) ∧
      (IsClosed rules (lastCharacter (some '-') (rest.take (lineLength rest)))
        (rest.drop (lineLength rest)) → IsClosed rules before ('-' :: rest)) := by
  rw [strippedFrom_comment (segmentAt_dashes h), isClosed_comment (segmentAt_dashes h)]
  by_cases hmem : '\n' ∈ rest
  · obtain ⟨line, tail, rfl, hline⟩ := List.eq_append_cons_of_mem hmem
    have hafter : (line ++ '\n' :: tail).drop (line.length + 1) = tail := by
      rw [List.drop_length_add_append]
      rfl
    -- the segment of the comment leaves the line feed, which is code
    have hcode : ∀ before, segmentAt rules before '\n' tail = (.code, 0) :=
      fun before => segmentAt_of_isQuiet (by decide)
    rw [takeWhile_line_append hline, List.take_left, List.drop_left]
    rw [lineLength_append_lineFeed hline, take_line, hafter, lastCharacter_append]
    rw [strippedFrom_cons_code (hcode _), isClosed_cons_code (hcode _)]
    refine ⟨('-' :: line).flatMap blanked ++ ['\n'], by simp, ?_, by simp, id⟩
    intro c hmem
    rcases List.mem_append.mp hmem with hmem | hmem
    · exact mem_flatMap_blanked hmem
    · exact .inr (.inl (List.mem_singleton.mp hmem))
  · -- no line feed: the comment goes to the end
    rw [takeWhile_line hmem, lineLength_of_lineFeed_not_mem hmem]
    exact ⟨_, flatMap_blanked_ne_nil, fun c hmem => mem_flatMap_blanked hmem, rfl, id⟩

end

end TableLineage.Sql
