import TableLineage.Proofs.Sql.Fading
import TableLineage.Sql.Scan

/-!
# Stripping comments twice

A text without its comments has no comments, and nothing in it is left open: stripping it again
changes nothing (`stripComments_stripComments`).  So a scan cannot tell a text from the same text
without its comments, but for the warning on what was left open (`scan_stripComments`).

## Strategy

The segments of the stripped text are compared with those of the text, segment by segment from the
start (`covers_strippedFrom`).

* Code and quoted text is kept, and what follows it fades, so it is a segment of the same kind
  again.
* A comment leaves blanks, which are code.  They change the character before what follows, and only
  a dollar sign looks at that: after a block comment it follows a slash in one text and a blank in
  the other, and neither belongs to a word, while a line comment is never followed by a dollar sign.
* An open segment leaves blanks up to the end of the text.
-/

namespace TableLineage.Sql

section

variable {rules : QuoteRules} {before other : Option Char} {c : Char} {text : List Char}
  {kind : SegmentKind} {more : Nat}

/-! ## Segments of stripped text -/

theorem strippedFrom_segment (h : SegmentCase rules before c text kind more) :
    strippedFrom rules before (c :: text) =
      Segment.stripped ⟨kind, c :: text.take more⟩ ++
        strippedFrom rules (lastCharacter (some c) (text.take more)) (text.drop more) := by
  unfold strippedFrom
  rw [segmentsFrom_segment h, List.flatMap_cons]

theorem stripped_of_not_isKept {segment : Segment} (h : segment.kind.isKept = false) :
    segment.stripped = segment.text.flatMap blanked := by
  unfold Segment.stripped
  cases hkind : segment.kind <;> simp [hkind, SegmentKind.isKept] at h ⊢

/-- What is not kept starts with a character that takes one byte and ends no line. -/
theorem SegmentCase.blanked_eq (h : SegmentCase rules before c text kind more)
    (hkept : kind.isKept = false) : blanked c = [' '] := by
  have hquote : ∀ {quote escape}, quotation? rules c = some (quote, escape) →
      blanked c = [' '] := by
    intro quote escape hopen
    rcases quotation?_eq_some hopen with ⟨rfl, -⟩ | ⟨rfl | ⟨rfl, -⟩, -⟩ | ⟨rfl, -⟩ <;> rfl
  cases h with
  | line hc | block hc | openBlock hc =>
      rw [hc]
      rfl
  | openQuote hopen => exact hquote hopen
  | openDollar hopen =>
      rw [(dollarOpening?_eq_some hopen).1]
      rfl
  | quoted | dollar | code => cases hkept

/-- A text fades into itself without comments. -/
theorem fades_strippedFrom (rules : QuoteRules) (before : Option Char) (text : List Char) :
    Fades text (strippedFrom rules before text) := by
  induction before, text using segments_induction rules with
  | nil before => exact .stop []
  | segment before c text kind more hcase ih =>
      rw [strippedFrom_segment hcase]
      cases hkept : kind.isKept with
      | true =>
          rw [stripped_of_isKept hkept]
          have hrest := ih.append (c :: text.take more)
          rwa [List.cons_append, List.take_append_drop] at hrest
      | false =>
          rw [stripped_of_not_isKept hkept, List.flatMap_cons, hcase.blanked_eq hkept]
          exact .space _ _

/-- The character before a text only matters to a dollar sign. -/
theorem SegmentCase.of_before (h : SegmentCase rules before c text kind more)
    (hbefore : c = '$' → endsWordBeforeDollar other = endsWordBeforeDollar before) :
    SegmentCase rules other c text kind more := by
  have hdollar : dollarOpening? rules other c text = dollarOpening? rules before c text := by
    unfold dollarOpening?
    by_cases hc : c = '$'
    · rw [hbefore hc]
    · rw [if_neg (fun h => hc h.1), if_neg (fun h => hc h.1)]
  cases h with
  | line hc hhead => exact .line hc hhead
  | block hc hhead hclose => exact .block hc hhead hclose
  | openBlock hc hhead hclose => exact .openBlock hc hhead hclose
  | quoted hopen hclose => exact .quoted hopen hclose
  | openQuote hopen hclose => exact .openQuote hopen hclose
  | dollar hopen hclose => exact .dollar (hdollar.trans hopen) hclose
  | openDollar hopen hclose => exact .openDollar (hdollar.trans hopen) hclose
  | code hline hblock hquote hnone => exact .code hline hblock hquote (hdollar.trans hnone)

/-! ## What blanks do -/

theorem isQuiet_of_mem_blanks {d : Char} (h : d ∈ text.flatMap blanked) : isQuiet d = true := by
  rcases mem_flatMap_blanked h with rfl | rfl | rfl <;> decide

theorem covers_blanks (other : Option Char) (rest : List Char) :
    covers rules SegmentKind.isKept other 0 (text.flatMap blanked).length
      (text.flatMap blanked ++ rest) = true := by
  apply covers_of_isPlain _ rfl
  apply isPlain_of_isQuiet
  intro d hmem
  exact isQuiet_of_mem_blanks hmem

/-- Blanks belong to no word. -/
theorem endsWordBeforeDollar_blanks (other : Option Char) :
    endsWordBeforeDollar (lastCharacter other ((c :: text).flatMap blanked)) = false := by
  obtain ⟨d, hmem, hlast⟩ := lastCharacter_of_ne_nil flatMap_blanked_ne_nil
  rw [hlast]
  rcases mem_flatMap_blanked hmem with rfl | rfl | rfl <;> rfl

theorem BlockBody.lastCharacter_eq {nested : Bool} {body : List Char} (h : BlockBody nested body)
    (before : Option Char) : lastCharacter before body = some '/' := by
  induction h generalizing before with
  | close => rfl
  | char _ _ _ ih => exact ih _
  | nest _ _ _ _ ih =>
      rw [lastCharacter_cons, lastCharacter_cons, lastCharacter_append]
      exact ih _

/-- No dollar sign directly after a comment belongs to a word. -/
theorem SegmentCase.endsWordBeforeDollar_eq_false (h : SegmentCase rules before c text kind more)
    (hkept : kind.isKept = false) (hdollar : (text.drop more).head? = some '$') :
    endsWordBeforeDollar (lastCharacter (some c) (text.take more)) = false := by
  cases h with
  | line =>
      -- a line comment is followed by a line feed, if by anything
      have hline := List.takeWhile_append_dropWhile (p := (· != '\n')) (l := text)
      have hend := List.head?_dropWhile_not (· != '\n') text
      generalize text.takeWhile (· != '\n') = line at hline hdollar
      generalize text.dropWhile (· != '\n') = rest at hline hend
      subst hline
      rw [List.drop_left] at hdollar
      simp [hdollar] at hend
  | @block position hc hhead hclose =>
      obtain ⟨tail, rfl⟩ := List.head?_eq_some_iff.mp hhead
      obtain ⟨body, rest, hbody, rfl, hblock⟩ := blockEnd?_eq_some_iff.mp hclose
      rw [List.tail_cons] at hbody
      rw [hbody, List.take_succ_cons, List.take_left, lastCharacter_cons, hblock.lastCharacter_eq]
      rfl
  | openBlock | openQuote | openDollar =>
      rw [List.drop_length] at hdollar
      cases hdollar
  | quoted | dollar | code => cases hkept

/-! ## Stripping again -/

/-- A kept segment of a text is one of the stripped text. -/
theorem SegmentCase.of_strippedFrom (h : SegmentCase rules before c text kind more)
    (hkept : kind.isKept = true)
    (hbefore : c = '$' → endsWordBeforeDollar other = endsWordBeforeDollar before) :
    SegmentCase rules other c (text.take more ++ strippedFrom rules
      (lastCharacter (some c) (text.take more)) (text.drop more)) kind more := by
  have hsame : SegmentCase rules before c (text.take more ++ text.drop more) kind more := by
    rwa [List.take_append_drop]
  exact (hsame.of_fades h.length_take.symm hkept (fades_strippedFrom rules _ _)).of_before hbefore

/-- All segments of a stripped text are kept when it is stripped again. -/
theorem covers_strippedFrom (rules : QuoteRules) (before : Option Char) (text : List Char) :
    ∀ other, (text.head? = some '$' →
        endsWordBeforeDollar other = endsWordBeforeDollar before) →
      covers rules SegmentKind.isKept other 0 (strippedFrom rules before text).length
        (strippedFrom rules before text) = true := by
  induction before, text using segments_induction rules with
  | nil before =>
      intro other _
      rfl
  | segment before c text kind more hcase ih =>
      intro other hbefore
      rw [strippedFrom_segment hcase]
      generalize hrest : strippedFrom rules (lastCharacter (some c) (text.take more))
        (text.drop more) = rest at ih
      rw [List.length_append]
      cases hkept : kind.isKept with
      | true =>
          rw [stripped_of_isKept hkept]
          -- what is kept is read again as the same segment
          have hagain := hcase.of_strippedFrom hkept fun hc => hbefore (by rw [hc]; rfl)
          rw [hrest] at hagain
          apply covers_add
          · rw [List.length_cons, hcase.length_take]
            apply covers_segment hagain.segmentAt_eq hkept
            rw [List.length_append, hcase.length_take]
            exact Nat.le_add_right _ _
          · rw [List.take_left, List.drop_left]
            exact ih _ fun _ => rfl
      | false =>
          rw [stripped_of_not_isKept hkept]
          -- what is blanked is code, and no dollar behind it comes to follow a word
          apply covers_add (covers_blanks other rest)
          rw [List.take_left, List.drop_left]
          apply ih
          intro hhead
          rw [endsWordBeforeDollar_blanks, hcase.endsWordBeforeDollar_eq_false hkept hhead]

/-- A text whose segments are all kept is not changed. -/
theorem stripComments_of_covers
    (h : covers rules SegmentKind.isKept none 0 text.length text = true) :
    stripComments rules text = ⟨text, []⟩ := by
  obtain ⟨hstripped, hclosed⟩ := strippedFrom_of_isKept h
  rw [List.take_length, List.drop_length, strippedFrom_nil, List.append_nil] at hstripped
  rw [List.drop_length] at hclosed
  have hissues : issuesFrom 0 (segmentsFrom rules none 0 text) = [] :=
    issuesFrom_of_isClosed (hclosed isClosed_nil)
  calc stripComments rules text
      = ⟨strippedFrom rules none text, issuesFrom 0 (segmentsFrom rules none 0 text)⟩ := rfl
    _ = ⟨text, []⟩ := by rw [hstripped, hissues]

/-- A text without its comments is not changed by stripping it, and nothing in it is left open. -/
theorem stripComments_stripComments (rules : QuoteRules) (sql : List Char) :
    stripComments rules (stripComments rules sql).text = ⟨(stripComments rules sql).text, []⟩ :=
  stripComments_of_covers (covers_strippedFrom rules none sql none fun _ => rfl)

end

/-! ## Scanning a stripped text -/

/-- A scan of a text without its comments finds the same statements, and warns of the same but for
what was left open. -/
theorem scan_stripComments (dialect : Dialect) (sql : String) :
    let stripped := stripComments dialect.quoteRules sql.toList
    scan dialect sql =
      { scan dialect (String.ofList stripped.text) with
        warnings := stripped.issues.map (·.warning sql.toList) ++
          (scan dialect (String.ofList stripped.text)).warnings } := by
  intro stripped
  have hagain : stripComments dialect.quoteRules (String.ofList stripped.text).toList =
      ⟨stripped.text, []⟩ := by
    rw [String.toList_ofList]
    exact stripComments_stripComments dialect.quoteRules sql.toList
  simp only [scan, hagain]
  rfl

/-- Stripping is idempotent.  A text and the same text without its comments have the same
statements, and the warnings on the text are the one on what was left open, if there is any, and
then the warnings on the text without comments. -/
theorem stripping_idempotent_and_scan_invariant (sql : String) :
    (∀ rules, stripComments rules (stripComments rules sql.toList).text =
      ⟨(stripComments rules sql.toList).text, []⟩) ∧
    ∀ dialect : Dialect,
      let stripped := stripComments dialect.quoteRules sql.toList
      let again := scan dialect (String.ofList stripped.text)
      (scan dialect sql).statements = again.statements ∧
        (scan dialect sql).warnings =
          stripped.issues.map (·.warning sql.toList) ++ again.warnings ∧
        stripped.issues.length ≤ 1 := by
  refine ⟨fun rules => stripComments_stripComments rules sql.toList, ?_⟩
  intro dialect stripped again
  have hscan : scan dialect sql =
      { again with warnings := stripped.issues.map (·.warning sql.toList) ++ again.warnings } :=
    scan_stripComments dialect sql
  rw [hscan]
  clear_value again
  exact ⟨rfl, rfl, length_issues_le_one dialect.quoteRules sql.toList⟩

end TableLineage.Sql
