import TableLineage.Proofs.Sql.Blanking
import TableLineage.Proofs.Sql.SegmentCases

/-!
# Segments of a text that fades

A text fades into another that agrees with it up to a place, from which on it is cut off or goes on
with a space.  A text fades into each of its starts, and into itself with comments blanked.

A segment that is closed before that place is found in both texts (`SegmentCase.of_fades`,
`SegmentCase.of_append`): no reader looks further than the end of the segment in a way that a space
or the end of the text could change.  So the segments of a text up to an open one are the
segments of the text before that one (`segmentsFrom_of_not_isClosed`).
-/

namespace TableLineage.Sql

/-- The second text agrees with the first up to a place from which on it is cut off or goes on with
a space. -/
inductive Fades : List Char → List Char → Prop
  | stop (text : List Char) : Fades text []
  | space (text other : List Char) : Fades text (' ' :: other)
  | same (c : Char) {text other : List Char} (h : Fades text other) :
      Fades (c :: text) (c :: other)

namespace Fades

variable {text other : List Char}

theorem append (inside : List Char) (h : Fades text other) :
    Fades (inside ++ text) (inside ++ other) := by
  induction inside with
  | nil => exact h
  | cons c inside ih => exact .same c ih

/-- A text fades into each of its starts. -/
theorem start (lead rest : List Char) : Fades (lead ++ rest) lead := by
  have hlead := append lead (.stop rest)
  rwa [List.append_nil] at hlead

/-- What a faded text starts with, up to a space, the text starts with. -/
theorem exists_append {lead rest : List Char} (h : Fades text (lead ++ rest))
    (hlead : ' ' ∉ lead) : ∃ tail, text = lead ++ tail := by
  induction lead generalizing text with
  | nil => exact ⟨text, rfl⟩
  | cons c lead ih =>
      rw [List.mem_cons, not_or] at hlead
      cases h with
      | space => exact absurd rfl hlead.1
      | same c h =>
          obtain ⟨tail, rfl⟩ := ih h hlead.2
          exact ⟨tail, rfl⟩

theorem head {c : Char} (h : Fades text other) (hspace : c ≠ ' ') (hhead : other.head? = some c) :
    text.head? = some c := by
  obtain ⟨rest, rfl⟩ := List.head?_eq_some_iff.mp hhead
  have hlead : Fades text ([c] ++ rest) := h
  obtain ⟨tail, rfl⟩ := hlead.exists_append (by simpa using Ne.symm hspace)
  rfl

end Fades

section

variable {rules : QuoteRules} {before : Option Char} {c : Char}
  {inside lead rest other text : List Char} {kind : SegmentKind} {more : Nat}

/-! ## Segments of faded text -/

theorem space_not_mem_of_isTag {tag : List Char} (h : IsTag tag) : ' ' ∉ tag ++ ['$'] := by
  rw [List.mem_append, not_or]
  refine ⟨?_, by decide⟩
  intro hmem
  exact absurd (h.1 _ hmem) (by decide)

/-- No tag appears where there was none. -/
theorem dollarTag?_eq_none_of_fades (h : dollarTag? text = none) (hfades : Fades text other) :
    dollarTag? other = none := by
  rw [Option.eq_none_iff_forall_ne_some] at h ⊢
  intro tag htag
  obtain ⟨⟨tail, rfl⟩, hisTag⟩ := dollarTag?_eq_some_iff.mp htag
  rw [List.append_cons] at hfades
  obtain ⟨rest, rfl⟩ := hfades.exists_append (space_not_mem_of_isTag hisTag)
  exact h tag (dollarTag?_eq_some_iff.mpr ⟨⟨rest, by rw [← List.append_cons]⟩, hisTag⟩)

theorem dollarOpening?_eq_none_of_fades (h : dollarOpening? rules before c text = none)
    (hfades : Fades text other) : dollarOpening? rules before c other = none := by
  unfold dollarOpening? at h ⊢
  split_ifs at h ⊢ with hdollar
  · exact dollarTag?_eq_none_of_fades h hfades
  · rfl

/-- The opening tag of a string that ends within a text stands within it too. -/
theorem exists_tag_of_le_length {tag : List Char}
    (h : dollarOpening? rules before c (inside ++ rest) = some tag)
    (hle : tag.length + 1 ≤ inside.length) :
    ∃ tail, inside = tag ++ '$' :: tail ∧
      ∀ other, dollarOpening? rules before c (inside ++ other) = some tag := by
  obtain ⟨rfl, hrule, hbefore, htag⟩ := dollarOpening?_eq_some h
  obtain ⟨⟨tail, htext⟩, hisTag⟩ := dollarTag?_eq_some_iff.mp htag
  have hprefix : tag ++ ['$'] <+: inside := by
    apply List.prefix_of_prefix_length_le ⟨tail, _⟩ (List.prefix_append inside rest)
    · simpa using hle
    · rw [htext, ← List.append_cons]
  obtain ⟨tail, rfl⟩ := hprefix
  rw [← List.append_cons]
  refine ⟨tail, rfl, ?_⟩
  intro other
  rw [dollarOpening?, if_pos ⟨rfl, hrule, by rw [hbefore]; rfl⟩]
  exact dollarTag?_eq_some_iff.mpr ⟨⟨tail ++ other, by simp⟩, hisTag⟩

theorem quote_ne_space {quote : Char} {escape : Option Char}
    (h : quotation? rules c = some (quote, escape)) : quote ≠ ' ' := by
  rcases quotation?_eq_some h with ⟨-, rfl, -⟩ | ⟨rfl | ⟨rfl, -⟩, rfl, -⟩ | ⟨-, -, rfl, -⟩ <;>
    decide

/-- Code and quoted text are the same if what follows them fades. -/
theorem SegmentCase.of_fades (h : SegmentCase rules before c (inside ++ rest) kind more)
    (hmore : more = inside.length) (hkept : kind.isKept = true) (hfades : Fades rest other) :
    SegmentCase rules before c (inside ++ other) kind more := by
  cases h with
  | line | block | openBlock | openQuote | openDollar => cases hkept
  | quoted hopen hclose =>
      -- the closing quote stands inside, and no further quote comes behind it
      refine .quoted hopen (closingQuote?_append ?_ hclose (by omega))
      exact hfades.head (quote_ne_space hopen)
  | @dollar tag position hopen hclose =>
      obtain ⟨tail, rfl, hopens⟩ := exists_tag_of_le_length hopen (by omega)
      -- tag and second dollar stand inside, and so does the closing tag
      have hdrop : ∀ cs, (tag ++ '$' :: tail ++ cs).drop (tag.length + 1) = tail ++ cs := by
        intro cs
        simp
      rw [hdrop] at hclose
      simp only [List.length_append, List.length_cons] at hmore
      refine .dollar (hopens other) ?_
      rw [hdrop]
      exact afterDelimiter?_append hclose (by omega) other
  | code hline hblock hquote hdollar =>
      obtain rfl := List.eq_nil_of_length_eq_zero hmore.symm
      refine .code ?_ ?_ hquote (dollarOpening?_eq_none_of_fades hdollar hfades)
      · -- a mark that starts here would start here before the rest faded
        rintro ⟨hc, hhead⟩
        exact hline ⟨hc, hfades.head (by decide) hhead⟩
      · rintro ⟨hc, hhead⟩
        exact hblock ⟨hc, hfades.head (by decide) hhead⟩

/-- A line comment that ends with a stretch has no line feed in it. -/
theorem eq_takeWhile_line
    (h : ((inside ++ rest).takeWhile (· != '\n')).length = inside.length) :
    (inside ++ rest).takeWhile (· != '\n') = inside := by
  have hprefix := List.takeWhile_prefix (l := inside ++ rest) (· != '\n')
  have hinside : (inside ++ rest).takeWhile (· != '\n') <+: inside :=
    List.prefix_of_prefix_length_le hprefix (List.prefix_append _ _) (Nat.le_of_eq h)
  exact hinside.eq_of_length h

/-- The comment ends at a line feed or at the end of the text, and does so if the text is cut off
behind it. -/
theorem takeWhile_line_of_append
    (h : (inside ++ (lead ++ rest)).takeWhile (· != '\n') = inside) :
    (inside ++ lead).takeWhile (· != '\n') = inside := by
  have hinside : ∀ d ∈ inside, (d != '\n') = true := by
    intro d hmem
    rw [← h] at hmem
    exact List.mem_takeWhile_imp (p := (· != '\n')) hmem
  rw [List.takeWhile_append_of_pos hinside, List.append_right_eq_self] at h
  rw [List.takeWhile_append_of_pos hinside, List.append_right_eq_self]
  cases lead with
  | nil => rfl
  | cons d lead =>
      rw [List.cons_append, List.takeWhile_cons] at h
      rw [List.takeWhile_cons]
      split_ifs at h ⊢ with hd
      rfl

/-- A closed segment is the same if the text is cut off somewhere behind it. -/
theorem SegmentCase.of_append (h : SegmentCase rules before c (inside ++ (lead ++ rest)) kind more)
    (hmore : more = inside.length) (hclosed : kind.isClosed = true) :
    SegmentCase rules before c (inside ++ lead) kind more := by
  by_cases hkept : kind.isKept = true
  · exact h.of_fades hmore hkept (.start lead rest)
  · cases h with
    | openBlock | openQuote | openDollar => cases hclosed
    | quoted | dollar | code => exact absurd rfl hkept
    | line hc hhead =>
        -- the comment ends inside, and its second dash stands there too
        have hline := eq_takeWhile_line hmore
        have hne : inside ≠ [] := by
          rintro rfl
          obtain ⟨tail, htail⟩ := List.head?_eq_some_iff.mp hhead
          rw [htail, List.takeWhile_cons_of_pos (by decide)] at hline
          cases hline
        have hhead' : (inside ++ lead).head? = some '-' := by
          rw [head?_append_of_ne_nil hne lead (lead ++ rest), hhead]
        have hcase : SegmentCase rules before c (inside ++ lead) .comment _ := .line hc hhead'
        rwa [takeWhile_line_of_append hline, ← hmore] at hcase
    | @block position hc hhead hclose =>
        cases inside with
        | nil => cases hmore
        | cons d inside =>
            rw [List.length_cons] at hmore
            exact .block hc hhead (blockEnd?_append hclose (by omega) lead)

/-! ## Segments up to an open one -/

theorem segmentsFrom_segment (h : SegmentCase rules before c text kind more) :
    segmentsFrom rules before 0 (c :: text) =
      ⟨kind, c :: text.take more⟩ ::
        segmentsFrom rules (lastCharacter (some c) (text.take more)) 0 (text.drop more) := by
  rw [segmentsFrom_cons, h.segmentAt_eq, segmentsFrom_skip]

/-- An open segment takes the whole text that is left. -/
theorem SegmentCase.length_of_open (h : SegmentCase rules before c text kind more)
    (hopen : kind.isClosed = false) : more = text.length := by
  cases h with
  | openBlock | openQuote | openDollar => rfl
  | line | block | quoted | dollar | code => cases hopen

/-- The segments of a text are closed but for the last one, and without that they are the segments
of the text before it. -/
theorem segmentsFrom_of_not_isClosed (h : ¬ IsClosed rules before text) :
    ∃ lead c rest kind, text = lead ++ c :: rest ∧ IsClosed rules before lead ∧
      segmentsFrom rules before 0 text =
        segmentsFrom rules before 0 lead ++ [⟨kind, c :: rest⟩] ∧
      kind.isClosed = false ∧
      SegmentCase rules (lastCharacter before lead) c rest kind rest.length := by
  induction before, text using segments_induction rules with
  | nil before => exact absurd isClosed_nil h
  | segment before c text kind more hcase ih =>
      have hsegments := segmentsFrom_segment hcase
      cases hclosed : kind.isClosed with
      | false =>
          have hmore := hcase.length_of_open hclosed
          refine ⟨[], c, text, kind, rfl, isClosed_nil, ?_, hclosed, hmore ▸ hcase⟩
          rw [hsegments, hmore, List.take_length, List.drop_length]
          rfl
      | true =>
          -- the first segment is closed, so the open one is further on
          have hopen : ¬ IsClosed rules (lastCharacter (some c) (text.take more))
              (text.drop more) := by
            intro hrest
            apply h
            unfold IsClosed
            rw [hsegments]
            exact List.forall_mem_cons.mpr ⟨hclosed, hrest⟩
          obtain ⟨lead, d, rest, last, hrest, hlead, hafter, hlast, hlastCase⟩ := ih hopen
          have htext : text = text.take more ++ (lead ++ d :: rest) := by
            rw [← hrest, List.take_append_drop]
          have hlength := hcase.length_take.symm
          generalize text.take more = inside at *
          subst htext hlength
          -- cut before the open segment, the first one is still what it was
          have hfirst := hcase.of_append rfl hclosed
          have hstart : segmentsFrom rules before 0 (c :: (inside ++ lead)) =
              ⟨kind, c :: inside⟩ :: segmentsFrom rules (lastCharacter (some c) inside) 0 lead := by
            rw [segmentsFrom_segment hfirst, List.take_left, List.drop_left]
          refine ⟨c :: (inside ++ lead), d, rest, last, ?_, ?_, ?_, hlast, ?_⟩
          · rw [List.cons_append, List.append_assoc]
          · unfold IsClosed
            rw [hstart]
            exact List.forall_mem_cons.mpr ⟨hclosed, hlead⟩
          · rw [hsegments, hafter, hstart]
            rfl
          · rwa [lastCharacter_cons, lastCharacter_append]

/-! ## What is left open -/

theorem flatMap_text_segmentsFrom (rules : QuoteRules) (before : Option Char) (text : List Char) :
    (segmentsFrom rules before 0 text).flatMap Segment.text = text := by
  induction before, text using segments_induction rules with
  | nil before => rfl
  | segment before c text kind more hcase ih =>
      rw [segmentsFrom_segment hcase, List.flatMap_cons, ih]
      show c :: text.take more ++ text.drop more = c :: text
      rw [List.cons_append, List.take_append_drop]

theorem byteLength_append (text other : List Char) :
    Text.byteLength (text ++ other) = Text.byteLength text + Text.byteLength other := by
  induction text with
  | nil => exact (Nat.zero_add _).symm
  | cons c text ih =>
      show c.utf8Size + Text.byteLength (text ++ other) =
        c.utf8Size + Text.byteLength text + Text.byteLength other
      rw [ih, Nat.add_assoc]

theorem issuesFrom_append (offset : Nat) (segments others : List Segment) :
    issuesFrom offset (segments ++ others) =
      issuesFrom offset segments ++
        issuesFrom (offset + Text.byteLength (segments.flatMap Segment.text)) others := by
  induction segments generalizing offset with
  | nil => rfl
  | cons segment segments ih =>
      have hlength : Text.byteLength ((segment :: segments).flatMap Segment.text) =
          Text.byteLength segment.text + Text.byteLength (segments.flatMap Segment.text) := by
        rw [List.flatMap_cons, byteLength_append]
      rw [List.cons_append, issuesFrom, ih, issuesFrom, List.append_assoc, hlength, Nat.add_assoc]

/-- The delimiter that opens what is not closed. -/
def StripIssue.mark : StripIssue → List Char
  | unterminatedBlockComment _ => ['/', '*']
  | unterminatedQuote quote _ => [quote]

/-- An open segment is reported at the delimiter that opens it. -/
theorem SegmentCase.exists_issue (h : SegmentCase rules before c rest kind more)
    (hopen : kind.isClosed = false) (text : List Char) (offset : Nat) :
    ∃ issue, Segment.issueAt? ⟨kind, text⟩ offset = some issue ∧ issue.offset = offset ∧
      issue.mark <+: c :: rest := by
  cases h with
  | line | block | quoted | dollar | code => cases hopen
  | openBlock hc hhead =>
      obtain ⟨tail, rfl⟩ := List.head?_eq_some_iff.mp hhead
      exact ⟨.unterminatedBlockComment offset, rfl, rfl, tail, by rw [hc]; rfl⟩
  | openQuote => exact ⟨.unterminatedQuote c offset, rfl, rfl, rest, rfl⟩
  | openDollar => exact ⟨.unterminatedQuote c offset, rfl, rfl, rest, rfl⟩

/-- What stripping does to a text with an open segment: it strips the text before that on its own,
blanks the rest and reports the place. -/
structure IsLeftOpen (rules : QuoteRules) (sql : List Char) (issue : StripIssue)
    (lead rest : List Char) : Prop where
  text_eq : sql = lead ++ rest
  offset_eq : issue.offset = Text.byteLength lead
  mark_prefix : issue.mark <+: rest
  closed : (stripComments rules lead).issues = []
  stripped_eq : stripComments rules sql =
    ⟨(stripComments rules lead).text ++ rest.flatMap blanked, [issue]⟩

/-- A text is closed, or it is open at one place. -/
theorem stripComments_cases (rules : QuoteRules) (sql : List Char) :
    (stripComments rules sql).issues = [] ∨
      ∃ issue lead rest, IsLeftOpen rules sql issue lead rest := by
  by_cases hclosed : IsClosed rules none sql
  · exact .inl (issuesFrom_of_isClosed hclosed)
  · obtain ⟨lead, c, rest, kind, htext, hlead, hsegments, hopen, hcase⟩ :=
      segmentsFrom_of_not_isClosed hclosed
    obtain ⟨issue, hissue, hoffset, hmark⟩ :=
      hcase.exists_issue hopen (c :: rest) (Text.byteLength lead)
    -- what is left open is blanked, and nothing in front of it has an issue
    have hstripped : Segment.stripped ⟨kind, c :: rest⟩ = (c :: rest).flatMap blanked := by
      cases kind <;> first | rfl | cases hopen
    have hleadIssues : issuesFrom 0 (segmentsFrom rules none 0 lead) = [] :=
      issuesFrom_of_isClosed hlead
    refine .inr ⟨issue, lead, c :: rest, htext, hoffset, hmark, hleadIssues, ?_⟩
    calc stripComments rules sql
        = ⟨(segmentsFrom rules none 0 sql).flatMap Segment.stripped,
            issuesFrom 0 (segmentsFrom rules none 0 sql)⟩ := rfl
      _ = ⟨(stripComments rules lead).text ++ (c :: rest).flatMap blanked, [issue]⟩ := by
          rw [hsegments, List.flatMap_append, List.flatMap_singleton, hstripped]
          rw [issuesFrom_append, hleadIssues, flatMap_text_segmentsFrom, Nat.zero_add]
          simp only [issuesFrom, hissue]
          rfl

theorem length_issues_le_one (rules : QuoteRules) (sql : List Char) :
    (stripComments rules sql).issues.length ≤ 1 := by
  rcases stripComments_cases rules sql with hnone | ⟨issue, lead, rest, hopen⟩
  · rw [hnone]
    exact Nat.zero_le 1
  · rw [hopen.stripped_eq]
    exact Nat.le_refl 1

end

end TableLineage.Sql
