import TableLineage.Proofs.Sql.Blanking
import TableLineage.Proofs.Sql.InStep
import TableLineage.Proofs.Sql.MaskedLexeme
import TableLineage.Proofs.Sql.Reading

/-!
# The tokens of text without comments

Stripping the comments of a text that the tokenizer accepts leaves nothing open and changes no
token, as long as the text has no divergence (`tokens_stripComments`).

## Strategy

The text is cut into pieces, one for each lexeme (`IsCut`), and what is to be shown of the text is
shown of the text from each piece on, going backwards (`agrees_of_isCut`).  A piece is one of three.

* A token or a blank: its segments end with it and are kept (`isCovered_of_read`), and it is read in
  the same way because what follows is masked (`lexemeAt_masked`).
* A comment after two dashes or a block comment: only blanks are left of it.  They are gaps in front
  of what follows (`Reads.blanks`).
* A line comment that the stripper takes for code: it starts and ends where it did, whatever comment
  the stripper finds inside.

## Sharpness

The text has a divergence exactly if the segments do not keep step with its lexemes
(`divergences_eq_nil_iff`), and each form of divergence can change tokens (`exists_misjudged`).
-/

namespace TableLineage.Sql

/-! ## Pieces that segments keep step with -/

/-- The segments of a text are closed, and without its comments it reads as its pieces. -/
structure Agrees (dialect : Dialect) (before : Option Char) (afterWord : Bool) (text : List Char)
    (pieces : List Piece) : Prop where
  closed : IsClosed dialect.quoteRules before text
  reads : Reads dialect afterWord (strippedFrom dialect.quoteRules before text)
    (pieces.filterMap Piece.written?)

section

variable {dialect : Dialect} {piece : Piece} {pieces : List Piece}

theorem Piece.written?_of_token {token : Token} (h : piece.lexeme = .token token) :
    piece.written? = some (token, piece.text) := by
  simp [Piece.written?, h, Lexeme.token?]

theorem Piece.written?_of_gap (h : piece.lexeme = .gap) : piece.written? = none := by
  simp [Piece.written?, h, Lexeme.token?]

theorem Piece.written?_of_blockComment {comment : List Char}
    (h : piece.lexeme = .blockComment comment) : piece.written? = none := by
  simp [Piece.written?, h, Lexeme.token?]

theorem Piece.standsFor_eq (h : ∀ comment, piece.lexeme ≠ .blockComment comment) :
    piece.standsFor dialect = [piece.lexeme] := by
  unfold Piece.standsFor
  cases hlexeme : piece.lexeme with
  | token | gap => rfl
  | blockComment comment => exact absurd hlexeme (h comment)

theorem Piece.leavesWord_eq (h : ∀ comment, piece.lexeme ≠ .blockComment comment) :
    piece.leavesWord dialect = piece.lexeme.isWord := by
  rw [Piece.leavesWord, Piece.standsFor_eq h]
  rfl

theorem Piece.leavesWord_of_gap (h : piece.lexeme = .gap) : piece.leavesWord dialect = false := by
  rw [Piece.leavesWord_eq (by simp [h]), h]
  rfl

/-- A block comment that is no divergence stands for no token, and leaves a word before the text
after it only where that does not matter. -/
theorem not_shown_of_divergence? {comment : List Char}
    (hlexeme : piece.lexeme = .blockComment comment) (hnone : piece.divergence? dialect = none) :
    (piece.standsFor dialect).filterMap Lexeme.token? = [] ∧
      (piece.leavesWord dialect = true → ['.', '_'].isPrefixOf piece.after = false) := by
  have hshown : piece.showsHint dialect = false := by
    simpa [Piece.divergence?, hlexeme] using hnone
  rw [Piece.showsHint, Bool.or_eq_false_iff] at hshown
  constructor
  · rw [List.filterMap_eq_nil_iff]
    intro lexeme hmem
    simpa using List.any_eq_false.mp hshown.1 lexeme hmem
  · intro hword
    simpa [hword] using hshown.2

theorem marked_of_startsLineComment {c : Char} {rest : List Char}
    (h : startsLineComment dialect c rest = true) (hdashes : ¬ (c = '-' ∧ rest.head? = some '-')) :
    dialect = .snowflake ∧ (c = '#' ∨ (c = '/' ∧ rest.head? = some '/')) := by
  simpa [startsLineComment, hdashes] using h

/-- A line comment that the stripper takes for code ends where it did once its first characters are
kept. -/
theorem reads_markedLine {before : Option Char} {text : List Char} {afterWord : Bool}
    {written : List (Token × List Char)} (c : Char) (lead : List Char)
    (hline : ∀ rest, startsLineComment dialect c (lead ++ rest) = true) (hlead : '\n' ∉ lead)
    (hcovers :
      covers dialect.quoteRules SegmentKind.isClosed before 0 (lineLength text) text = true)
    (hafter : Reads dialect false (strippedFrom dialect.quoteRules
      (lastCharacter before (text.take (lineLength text))) (text.drop (lineLength text))) written) :
    Reads dialect afterWord (c :: (lead ++ strippedFrom dialect.quoteRules before text))
      written := by
  obtain ⟨line, hstripped, hlength, -⟩ := strippedFrom_line hcovers
  have hwhole : lineLength (lead ++ strippedFrom dialect.quoteRules before text) =
      (lead ++ line).length := by
    rw [lineLength_append hlead, hlength, List.length_append]
  have hread : lexemeAt dialect afterWord c (lead ++ strippedFrom dialect.quoteRules before text) =
      .ok (.gap, (lead ++ line).length) := by
    rw [lexemeAt_eq (.lineComment (hline _)), hwhole]
  rw [hstripped, ← List.append_assoc] at hread ⊢
  exact .gap hread hafter

section

variable
  (hread : lexemeAt dialect piece.afterWord piece.first piece.rest =
    .ok (piece.lexeme, piece.more))
  (hafter : Agrees dialect (lastCharacter piece.before piece.text) (piece.leavesWord dialect)
    piece.after pieces)

include hread hafter

/-- A piece that is kept is read in the same way before blanked comments. -/
theorem lexemeAt_strippedFrom
    (hline : startsLineComment dialect piece.first piece.rest = false)
    (hblock : ¬ (piece.first = '/' ∧ piece.rest.head? = some '*'))
    (hle : piece.more ≤ piece.rest.length) :
    lexemeAt dialect piece.afterWord piece.first (piece.rest.take piece.more ++
      strippedFrom dialect.quoteRules (lastCharacter piece.before piece.text) piece.after) =
        .ok (piece.lexeme, (piece.rest.take piece.more).length) := by
  have hlength : (piece.rest.take piece.more).length = piece.more := by
    rw [List.length_take, Nat.min_eq_left hle]
  have hwhole : piece.rest.take piece.more ++ piece.after = piece.rest :=
    List.take_append_drop piece.more piece.rest
  apply lexemeAt_masked (masked_strippedFrom hafter.closed)
  · rw [hwhole, hlength, hread]
  · rw [hwhole, hline]
  · rw [hwhole]
    exact hblock

theorem agrees_cons_kept
    (hline : startsLineComment dialect piece.first piece.rest = false)
    (hblock : ¬ (piece.first = '/' ∧ piece.rest.head? = some '*'))
    (hcovered : piece.isCovered dialect SegmentKind.isKept = true) :
    Agrees dialect piece.before piece.afterWord (piece.first :: piece.rest) (piece :: pieces) := by
  obtain ⟨hstripped, hclosed⟩ := strippedFrom_of_isKept hcovered
  refine ⟨hclosed hafter.closed, ?_⟩
  have hle : piece.more ≤ piece.rest.length := Nat.le_of_succ_le_succ (length_le_of_covers hcovered)
  -- what is kept is read as the same lexeme, since it ends before what may be blanked
  have hsame := lexemeAt_strippedFrom hread hafter hline hblock hle
  -- it is no comment, which would start with its mark
  have hcomment : ∀ comment, piece.lexeme ≠ .blockComment comment := by
    intro comment hlexeme
    rw [hlexeme] at hread
    exact hblock (head_of_blockComment hread)
  have hreads := hafter.reads
  rw [Piece.leavesWord_eq hcomment] at hreads
  rw [hstripped]
  show Reads dialect piece.afterWord (piece.first :: (piece.rest.take piece.more ++
    strippedFrom dialect.quoteRules (lastCharacter piece.before piece.text) piece.after)) _
  cases hlexeme : piece.lexeme with
  | blockComment comment => exact absurd hlexeme (hcomment comment)
  | gap =>
      rw [hlexeme] at hsame hreads
      rw [List.filterMap_cons_none (Piece.written?_of_gap hlexeme)]
      exact .gap hsame hreads
  | token token =>
      rw [hlexeme] at hsame hreads
      rw [List.filterMap_cons_some (Piece.written?_of_token hlexeme)]
      exact .token hsame hreads

/-! ## Comments -/

theorem agrees_cons_dashes (hfirst : piece.first = '-') (hrest : piece.rest.head? = some '-') :
    Agrees dialect piece.before piece.afterWord (piece.first :: piece.rest) (piece :: pieces) := by
  have hline : startsLineComment dialect piece.first piece.rest = true := by
    simp [startsLineComment, hfirst, hrest]
  rw [lexemeAt_eq (.lineComment hline)] at hread
  obtain ⟨hlexeme, hmore⟩ := Prod.mk.inj (Except.ok.inj hread)
  obtain ⟨blanks, hne, hblank, hstripped, hclosed⟩ :=
    strippedFrom_dashes dialect.quoteRules piece.before hrest
  obtain ⟨hafterClosed, hreads⟩ := hafter
  rw [Piece.text, Piece.after, ← hmore, lastCharacter_cons, hfirst] at hafterClosed hreads
  rw [Piece.leavesWord_of_gap hlexeme.symm] at hreads
  rw [hfirst]
  refine ⟨hclosed hafterClosed, ?_⟩
  rw [hstripped, List.filterMap_cons_none (Piece.written?_of_gap hlexeme.symm)]
  exact Reads.blanks hne hblank hreads piece.afterWord

/-- A block comment is blanked.  A hint that shows no lexemes leaves at most a word before the text
after it. -/
theorem agrees_cons_block (hfirst : piece.first = '/') (hrest : piece.rest.head? = some '*')
    (hnone : piece.divergence? dialect = none) :
    Agrees dialect piece.before piece.afterWord (piece.first :: piece.rest) (piece :: pieces) := by
  obtain ⟨body, hbody⟩ := List.head?_eq_some_iff.mp hrest
  rw [hfirst, lexemeAt_eq (.blockComment hrest), hbody, List.tail_cons, blockComment] at hread
  cases hend : blockEnd? dialect.quoteRules.nestedComments 0 body with
  | none =>
      rw [hend] at hread
      cases hread
  | some position =>
      rw [hend] at hread
      obtain ⟨hlexeme, hmore⟩ := Prod.mk.inj (Except.ok.inj hread)
      have hsegment : segmentAt dialect.quoteRules piece.before piece.first piece.rest =
          (.comment, piece.more) := by
        simp [segmentAt, hfirst, hbody, hend, hmore]
      -- the blanks in place of the comment are no word, the hint may have left the one before it
      have hreads : Reads dialect false (strippedFrom dialect.quoteRules
          (lastCharacter piece.before piece.text) piece.after)
            (pieces.filterMap Piece.written?) := by
        cases hword : piece.leavesWord dialect with
        | false => exact hword ▸ hafter.reads
        | true =>
            refine hafter.reads.ofOtherWord (Bool.eq_false_iff.mpr fun hperiod => ?_) false
            have hshown := (not_shown_of_divergence? hlexeme.symm hnone).2 hword
            rw [isPrefixOf_of_masked (masked_strippedFrom hafter.closed) (by decide) hperiod]
              at hshown
            cases hshown
      refine ⟨(isClosed_comment hsegment).mpr hafter.closed, ?_⟩
      rw [strippedFrom_comment hsegment,
        List.filterMap_cons_none (Piece.written?_of_blockComment hlexeme.symm)]
      exact Reads.blanks flatMap_blanked_ne_nil (fun _ => mem_flatMap_blanked) hreads
        piece.afterWord

/-- A line comment that is code for the stripper starts and ends where it did. -/
theorem agrees_cons_markedLine (hdialect : dialect = .snowflake)
    (hfirst : piece.first = '#' ∨ (piece.first = '/' ∧ piece.rest.head? = some '/'))
    (hnone : piece.divergence? dialect = none) :
    Agrees dialect piece.before piece.afterWord (piece.first :: piece.rest) (piece :: pieces) := by
  subst hdialect
  have hline : startsLineComment .snowflake piece.first piece.rest = true := by
    rcases hfirst with hfirst | ⟨hfirst, hhead⟩ <;> simp [startsLineComment, *]
  rw [lexemeAt_eq (.lineComment hline)] at hread
  obtain ⟨hlexeme, hmore⟩ := Prod.mk.inj (Except.ok.inj hread)
  have hmarked : piece.isMarkedLine = true := by
    rcases hfirst with hfirst | ⟨hfirst, -⟩ <;> simp [Piece.isMarkedLine, hfirst]
  have hharmless : piece.isHarmlessLine .snowflake = true := by
    simpa [Piece.divergence?, ← hlexeme, hmarked] using hnone
  rw [Piece.isHarmlessLine, Bool.and_eq_true, Piece.isCovered, ← hmore] at hharmless
  obtain ⟨hcovers, hthird⟩ := hharmless
  have hwritten := Piece.written?_of_gap hlexeme.symm
  obtain ⟨hafterClosed, hreads⟩ := hafter
  rw [Piece.text, Piece.after, ← hmore, lastCharacter_cons] at hafterClosed hreads
  rw [Piece.leavesWord_of_gap hlexeme.symm] at hreads
  rcases hfirst with hfirst | ⟨hfirst, hhead⟩
  · have hcode : segmentAt Dialect.snowflake.quoteRules piece.before '#' piece.rest = (.code, 0) :=
      segmentAt_of_isQuiet (by decide)
    rw [hfirst] at hcovers hafterClosed hreads ⊢
    have hrestCovers := covers_of_cons_code hcode hcovers
    obtain ⟨-, -, -, hclosed⟩ := strippedFrom_line hrestCovers
    refine ⟨(isClosed_cons_code hcode).mpr (hclosed hafterClosed), ?_⟩
    rw [strippedFrom_cons_code hcode, List.filterMap_cons_none hwritten]
    exact reads_markedLine '#' [] (fun rest => rfl) (by decide) hrestCovers hreads
  · obtain ⟨text, hrest⟩ := List.head?_eq_some_iff.mp hhead
    rw [hfirst, hrest] at hcovers hafterClosed hreads hthird ⊢
    -- neither slash starts a block comment, so both are code
    have hstar : text.head? ≠ some '*' := by simpa using hthird
    have hcode : segmentAt Dialect.snowflake.quoteRules piece.before '/' ('/' :: text) =
      (.code, 0) := segmentAt_slash (by simp)
    have hsecond : segmentAt Dialect.snowflake.quoteRules (some '/') '/' text = (.code, 0) :=
      segmentAt_slash hstar
    rw [lineLength_cons (by decide)] at hcovers hafterClosed hreads
    have hrestCovers := covers_of_cons_code hsecond (covers_of_cons_code hcode hcovers)
    obtain ⟨-, -, -, hclosed⟩ := strippedFrom_line hrestCovers
    refine ⟨(isClosed_cons_code hcode).mpr ((isClosed_cons_code hsecond).mpr
      (hclosed hafterClosed)), ?_⟩
    rw [strippedFrom_cons_code hcode, strippedFrom_cons_code hsecond,
      List.filterMap_cons_none hwritten]
    exact reads_markedLine '/' ['/'] (fun rest => rfl) (by decide) hrestCovers hreads

end

/-! ## All pieces -/

/-- The segments of a text that is cut into pieces agree with them if no piece is a divergence. -/
theorem agrees_of_isCut {before : Option Char} {afterWord : Bool} {text : List Char}
    (h : IsCut dialect before afterWord text pieces)
    (hnone : ∀ piece ∈ pieces, piece.divergence? dialect = none) :
    Agrees dialect before afterWord text pieces := by
  -- the text after a piece comes first: how the piece is read depends on what is left of that text
  induction h with
  | nil before afterWord => exact ⟨isClosed_nil, .nil afterWord⟩
  | cons piece hread hafter ih =>
      have hrest := ih fun other hmem => hnone other (List.mem_cons_of_mem _ hmem)
      have hpiece := hnone piece List.mem_cons_self
      cases hline : startsLineComment dialect piece.first piece.rest with
      | true =>
          by_cases hdashes : piece.first = '-' ∧ piece.rest.head? = some '-'
          · exact agrees_cons_dashes hread hrest hdashes.1 hdashes.2
          · obtain ⟨hdialect, hfirst⟩ := marked_of_startsLineComment hline hdashes
            exact agrees_cons_markedLine hread hrest hdialect hfirst hpiece
      | false =>
          by_cases hblock : piece.first = '/' ∧ piece.rest.head? = some '*'
          · exact agrees_cons_block hread hrest hblock.1 hblock.2 hpiece
          · refine agrees_cons_kept hread hrest hline hblock ?_
            by_cases hcovered : piece.isCovered dialect SegmentKind.isKept = true
            · exact hcovered
            · apply isCovered_of_read hread hline hblock
              intro token hlexeme
              simpa [Piece.divergence?, hlexeme, hcovered] using hpiece

/-! ## Tokens -/

/-- A piece that is no divergence stands for the token that is written there. -/
theorem tokens_standsFor (h : piece.divergence? dialect = none) :
    (piece.standsFor dialect).filterMap Lexeme.token? = (piece.written?.map Prod.fst).toList := by
  cases hlexeme : piece.lexeme with
  | token token =>
      rw [Piece.standsFor_eq (by simp [hlexeme]), Piece.written?_of_token hlexeme, hlexeme]
      rfl
  | gap =>
      rw [Piece.standsFor_eq (by simp [hlexeme]), Piece.written?_of_gap hlexeme, hlexeme]
      rfl
  | blockComment comment =>
      rw [(not_shown_of_divergence? hlexeme h).1, Piece.written?_of_blockComment hlexeme]
      rfl

theorem tokens_flatMap_standsFor (h : ∀ piece ∈ pieces, piece.divergence? dialect = none) :
    (pieces.flatMap (Piece.standsFor dialect)).filterMap Lexeme.token? =
      (pieces.filterMap Piece.written?).map Prod.fst := by
  induction pieces with
  | nil => rfl
  | cons piece pieces ih =>
      have hrest := ih fun other hmem => h other (List.mem_cons_of_mem _ hmem)
      rw [List.flatMap_cons, List.filterMap_append, tokens_standsFor (h piece List.mem_cons_self),
        hrest, List.filterMap_cons]
      cases piece.written? <;> rfl

theorem tokens_eq_ok_iff {sql : List Char} {found : List Token} :
    tokens dialect sql = .ok found ↔
      ∃ all, lexemes dialect sql = .ok all ∧ all.filterMap Lexeme.token? = found := by
  unfold tokens
  cases lexemes dialect sql <;> simp [Except.map]

theorem forall_divergence?_eq_none {sql : List Char} (h : divergences dialect sql = []) :
    ∀ piece ∈ Sql.pieces dialect sql, piece.divergence? dialect = none :=
  List.filterMap_eq_nil_iff.mp h

theorem lexemeAt_of_mem_isCut {before : Option Char} {afterWord : Bool} {text : List Char}
    (h : IsCut dialect before afterWord text pieces) (hmem : piece ∈ pieces) :
    lexemeAt dialect piece.afterWord piece.first piece.rest = .ok (piece.lexeme, piece.more) := by
  induction h with
  | nil => cases hmem
  | cons first hread _ ih =>
      rcases List.mem_cons.mp hmem with rfl | hmem
      · exact hread
      · exact ih hmem

/-- A text has no divergence exactly if the segments keep step with all its lexemes. -/
theorem divergences_eq_nil_iff {sql : List Char} {found : List Token}
    (h : tokens dialect sql = .ok found) :
    divergences dialect sql = [] ↔
      ∀ piece ∈ Sql.pieces dialect sql, piece.isInStep dialect = true := by
  obtain ⟨all, hall, -⟩ := tokens_eq_ok_iff.mp h
  obtain ⟨hcut, -⟩ := isCut_of_lexemes hall
  constructor
  · intro hnone piece hmem
    have hpiece := forall_divergence?_eq_none hnone piece hmem
    exact (divergence?_eq_none_iff (lexemeAt_of_mem_isCut hcut hmem)).mp hpiece
  · intro hstep
    apply List.filterMap_eq_nil_iff.mpr
    intro piece hmem
    exact (divergence?_eq_none_iff (lexemeAt_of_mem_isCut hcut hmem)).mpr (hstep piece hmem)

/-- The tokens of a text without divergences are those that are written in it. -/
theorem tokens_eq_writtenTokens {sql : List Char} {found : List Token}
    (h : tokens dialect sql = .ok found) (hnone : divergences dialect sql = []) :
    found = (writtenTokens dialect sql).map Prod.fst := by
  obtain ⟨all, hall, rfl⟩ := tokens_eq_ok_iff.mp h
  obtain ⟨-, rfl⟩ := isCut_of_lexemes hall
  exact tokens_flatMap_standsFor (forall_divergence?_eq_none hnone)

/-- Stripping its comments leaves nothing of a text open and changes none of its tokens, if the
tokenizer accepts the text and no lexeme is a divergence. -/
theorem tokens_stripComments {sql : List Char} {found : List Token}
    (h : tokens dialect sql = .ok found) (hnone : divergences dialect sql = []) :
    (stripComments dialect.quoteRules sql).issues = [] ∧
      tokens dialect (stripComments dialect.quoteRules sql).text = .ok found ∧
      writtenTokens dialect (stripComments dialect.quoteRules sql).text =
        writtenTokens dialect sql := by
  have hfound := tokens_eq_writtenTokens h hnone
  obtain ⟨all, hall, -⟩ := tokens_eq_ok_iff.mp h
  obtain ⟨hcut, -⟩ := isCut_of_lexemes hall
  obtain ⟨hclosed, hreads⟩ := agrees_of_isCut hcut (forall_divergence?_eq_none hnone)
  refine ⟨issuesFrom_of_isClosed hclosed, ?_, hreads.writtenTokens none⟩
  obtain ⟨stripped, hstripped, htokens⟩ := hreads.lexemesFrom (readHint dialect) 1
  refine tokens_eq_ok_iff.mpr ⟨stripped, hstripped, ?_⟩
  rw [htokens, hfound]
  rfl

end

/-- A query with comments, and with marks of comments in strings and names. -/
def commentedQuery : List Char :=
  "SELECT U&'it''s' AS \"a--b\" -- it's new\nFROM t /* a /* nested */ 'one' */, $q$--$q$".toList

theorem tokens_commentedQuery :
    (stripComments Dialect.generic.quoteRules commentedQuery).issues = [] ∧
      tokens .generic (stripComments Dialect.generic.quoteRules commentedQuery).text =
        .ok [.word "SELECT" none, .other, .word "AS" none, .word "a--b" (some .double),
          .word "FROM" none, .word "t" none, .comma, .other] ∧
      writtenTokens .generic (stripComments Dialect.generic.quoteRules commentedQuery).text =
        writtenTokens .generic commentedQuery := by
  have hfound : tokens .generic commentedQuery =
      .ok [.word "SELECT" none, .other, .word "AS" none, .word "a--b" (some .double),
        .word "FROM" none, .word "t" none, .comma, .other] := by decide +kernel
  have hnone : divergences .generic commentedQuery = [] := by decide +kernel
  exact tokens_stripComments hfound hnone

/-- No form of divergence can be left out: each alone can open a quote that is none, or change the
tokens of a text. -/
theorem exists_misjudged (form : Divergence) :
    ∃ dialect sql found, tokens dialect sql = .ok found ∧ divergences dialect sql = [form] ∧
      ¬ ((stripComments dialect.quoteRules sql).issues = [] ∧
        tokens dialect (stripComments dialect.quoteRules sql).text = .ok found) := by
  cases form with
  | lineComment =>
      refine ⟨.snowflake, "a # it's\nb".toList, [.word "a" none, .word "b" none], ?_⟩
      decide +kernel
  | hint =>
      refine ⟨.generic, "/*! a */".toList, [.word "a" none], ?_⟩
      decide +kernel
  | letteredString =>
      refine ⟨.generic, "e'\\'' a".toList, [.other, .word "a" none], ?_⟩
      decide +kernel
  | dollarString =>
      refine ⟨.duckdb, "1$$'$$".toList, [.number "1", .other], ?_⟩
      decide +kernel
  | word =>
      refine ⟨.mssql, "@@' a".toList, [.word "@@'" none, .word "a" none], ?_⟩
      decide +kernel
  | operator =>
      refine ⟨.duckdb, "a #-- b".toList, [.word "a" none, .other, .other, .word "b" none], ?_⟩
      decide +kernel

end TableLineage.Sql
