import TableLineage.Proofs.Sql.Fading

/-!
# Text written as segments

SQL text is written as a sequence of segments: code, quoted text, dollar strings and comments, each
of a form that can be told from its own characters (`IsWritten`).  Stripping blanks the comments of
such a text and nothing else (`stripComments_of_isSegmented`).

Segments have to stand apart for that (`StandApart`).  A dollar sign right after a word belongs to
the word, and a closing bracket right after a name in brackets doubles the one before it, so in
`a$$'$$` and `[a]]` the segments are not the ones that were written (`stripComments_runTogether`).

## Strategy

Quoted texts in a row with the same quotes, as in `'a''b'`, are read as one, since each closing
quote doubles the opening one after it.  So what is shown of a sequence of segments is shown at once
of the sequence and of the sequence after quoted text (`strips_of_isSegmented`): what follows either
closes that text or goes on with it.
-/

namespace TableLineage.Sql

/-! ## Segments -/

/-- Code: nothing in it opens a quote or a comment, whatever follows. -/
structure IsCode (text : List Char) : Prop where
  noQuote : ∀ c ∈ text, c ∉ ['\'', '"', '\x60', '[', '$']
  noLine : ¬ ['-', '-'] <:+: text
  noBlock : ¬ ['/', '*'] <:+: text
  last : ∀ c, text.getLast? = some c → c ≠ '-' ∧ c ≠ '/'

/-- The delimiter of a dollar string with the given tag. -/
def dollarDelimiter (tag : List Char) : List Char :=
  '$' :: tag ++ ['$']

/-- A segment of SQL text as it is written. -/
inductive IsWritten (rules : QuoteRules) : Segment → Prop
  | code {text : List Char} (h : IsCode text) : IsWritten rules ⟨.code, text⟩
  /-- A string in single quotes, or a name in double quotes, backticks or brackets. -/
  | quoted {c quote : Char} {escape : Option Char} {body : List Char}
      (hopen : quotation? rules c = some (quote, escape)) (h : QuotedBody quote escape body) :
      IsWritten rules ⟨.quoted, c :: body ++ [quote]⟩
  /-- A dollar string: its delimiter stands first where it closes the string. -/
  | dollar {tag body : List Char} (hrule : rules.dollarStrings = true) (htag : IsTag tag)
      (hfirst : ∀ k < body.length,
        ¬ dollarDelimiter tag <+: (body ++ dollarDelimiter tag).drop k) :
      IsWritten rules ⟨.quoted, dollarDelimiter tag ++ body ++ dollarDelimiter tag⟩
  | lineComment {body : List Char} (h : '\n' ∉ body) :
      IsWritten rules ⟨.comment, '-' :: '-' :: body⟩
  | blockComment {body : List Char} (h : BlockBody rules.nestedComments body) :
      IsWritten rules ⟨.comment, '/' :: '*' :: body⟩

/-- Segments one after the other: a line comment is followed by a line feed or by nothing. -/
def IsSegmented (rules : QuoteRules) : List Segment → Prop
  | [] => True
  | segment :: rest =>
    IsWritten rules segment ∧
      (segment.kind = .comment → segment.text.head? = some '-' →
        ∀ c, (rest.flatMap Segment.text).head? = some c → c = '\n') ∧
      IsSegmented rules rest

/-- Segments that stand apart: a dollar string does not follow a letter, a digit, an underscore or a
dollar sign, and no closing bracket follows a name in brackets. -/
def StandApart (before : Option Char) : List Segment → Prop
  | [] => True
  | segment :: rest =>
    (segment.kind = .quoted → segment.text.head? = some '$' →
        endsWordBeforeDollar before = false) ∧
      (segment.kind = .quoted → segment.text.head? = some '[' →
        (rest.flatMap Segment.text).head? ≠ some ']') ∧
      StandApart (lastCharacter before segment.text) rest

/-! ## Code -/

section

variable {rules : QuoteRules} {before : Option Char} {c : Char}
  {inside rest result text : List Char}

theorem IsCode.tail (h : IsCode (c :: text)) : IsCode text where
  noQuote d hmem := h.noQuote d (List.mem_cons_of_mem c hmem)
  noLine hline := h.noLine (hline.trans (List.suffix_cons c text).isInfix)
  noBlock hblock := h.noBlock (hblock.trans (List.suffix_cons c text).isInfix)
  last d hlast := by
    apply h.last d
    rw [List.getLast?_cons, hlast]
    rfl

/-- A mark that code ends in or that is doubled is none. -/
theorem IsCode.exists_next {mark next : Char} (h : IsCode (mark :: text))
    (hlast : mark = '-' ∨ mark = '/') (hmark : ¬ [mark, next] <:+: mark :: text) :
    ∃ d tail, text = d :: tail ∧ d ≠ next := by
  cases text with
  | nil =>
      obtain ⟨hdash, hslash⟩ := h.last mark rfl
      exact (hlast.elim hdash hslash).elim
  | cons d tail =>
      refine ⟨d, tail, rfl, ?_⟩
      rintro rfl
      exact hmark (List.prefix_append [mark, d] tail).isInfix

theorem isPlain_of_isCode (h : IsCode text) (before : Option Char) :
    isPlain before text = true := by
  induction text generalizing before with
  | nil => rfl
  | cons c text ih =>
      refine isPlain_cons_iff.mpr ⟨?_, ih h.tail (some c)⟩
      by_cases hdash : c = '-'
      · subst hdash
        exact .inr (.inl ⟨rfl, h.exists_next (.inl rfl) h.noLine⟩)
      · by_cases hslash : c = '/'
        · subst hslash
          exact .inr (.inr (.inl ⟨rfl, h.exists_next (.inr rfl) h.noBlock⟩))
        · have hquote := h.noQuote c List.mem_cons_self
          simp only [List.mem_cons, List.not_mem_nil, or_false, not_or] at hquote
          left
          simp [isQuiet, hdash, hslash, hquote]

theorem covers_of_isCode (h : IsCode inside) (before : Option Char) (rest : List Char) :
    covers rules SegmentKind.isKept before 0 inside.length (inside ++ rest) = true :=
  covers_of_isPlain (isPlain_of_isCode h before) rfl rest

/-! ## Stripping segment by segment -/

/-- The segments of a text from a place on are closed, and without its comments it is the result. -/
structure StripsTo (rules : QuoteRules) (before : Option Char) (text result : List Char) :
    Prop where
  stripped_eq : strippedFrom rules before text = result
  closed : IsClosed rules before text

namespace StripsTo

theorem nil (before : Option Char) : StripsTo rules before [] [] :=
  ⟨rfl, isClosed_nil⟩

theorem kept (h : covers rules SegmentKind.isKept before 0 inside.length (inside ++ rest) = true)
    (hrest : StripsTo rules (lastCharacter before inside) rest result) :
    StripsTo rules before (inside ++ rest) (inside ++ result) := by
  obtain ⟨hstripped, hclosed⟩ := strippedFrom_of_isKept h
  rw [List.take_left, List.drop_left] at hstripped hclosed
  exact ⟨by rw [hstripped, hrest.stripped_eq], hclosed hrest.closed⟩

theorem comment (h : SegmentCase rules before c (inside ++ rest) .comment inside.length)
    (hrest : StripsTo rules (lastCharacter (some c) inside) rest result) :
    StripsTo rules before (c :: inside ++ rest) ((c :: inside).flatMap blanked ++ result) := by
  have hstripped := strippedFrom_comment h.segmentAt_eq
  have hclosed := isClosed_comment h.segmentAt_eq
  rw [List.take_left, List.drop_left] at hstripped hclosed
  exact ⟨by rw [List.cons_append, hstripped, hrest.stripped_eq], hclosed.mpr hrest.closed⟩

end StripsTo

theorem escape_ne_quote {quote : Char} {escape : Option Char}
    (hopen : quotation? rules c = some (quote, escape)) : escape ≠ some quote := by
  rcases quotation?_eq_some hopen with ⟨-, rfl, rfl⟩ | ⟨-, -, rfl⟩ | ⟨-, -, -, rfl⟩
  · split <;> decide
  · exact (Option.some_ne_none quote).symm
  · exact (Option.some_ne_none quote).symm

theorem quote_of_bracket {quote : Char} {escape : Option Char}
    (hopen : quotation? rules '[' = some (quote, escape)) : quote = ']' := by
  rcases quotation?_eq_some hopen with ⟨hc, -⟩ | ⟨hc | ⟨hc, -⟩, -⟩ | ⟨-, -, hquote, -⟩
  · cases hc
  · cases hc
  · cases hc
  · exact hquote

theorem SegmentCase.of_quotedBody {quote : Char} {escape : Option Char} {body : List Char}
    (hopen : quotation? rules c = some (quote, escape)) (hbody : QuotedBody quote escape body)
    (hrest : rest.head? ≠ some quote) :
    SegmentCase rules before c (body ++ [quote] ++ rest) .quoted (body ++ [quote]).length := by
  have hclose := closingQuote?_of_quotedBody hbody (escape_ne_quote hopen) hrest
  rw [List.append_assoc, List.length_append]
  exact .quoted hopen hclose

theorem SegmentCase.of_lineComment {body : List Char} (hbody : '\n' ∉ body)
    (hrest : ∀ d, rest.head? = some d → d = '\n') :
    SegmentCase rules before '-' ('-' :: body ++ rest) .comment ('-' :: body).length := by
  have hline : ('-' :: body ++ rest).takeWhile (· != '\n') = '-' :: body := by
    have hdash : '\n' ∉ '-' :: body := by simp [hbody]
    rw [takeWhile_of_lineFeed_not_mem hdash, List.append_right_eq_self]
    cases rest with
    | nil => rfl
    | cons d rest =>
        obtain rfl := hrest d rfl
        rfl
  have hcase : SegmentCase rules before '-' ('-' :: body ++ rest) .comment _ := .line rfl rfl
  rwa [hline] at hcase

theorem SegmentCase.of_blockBody {body : List Char} (h : BlockBody rules.nestedComments body) :
    SegmentCase rules before '/' ('*' :: body ++ rest) .comment ('*' :: body).length :=
  .block rfl rfl ((blockEnd?_append_of_blockBody h).1 rest)

/-- The string ends where its delimiter stands first, also if more text follows. -/
theorem afterDelimiter?_of_first {delimiter body : List Char}
    (hfirst : ∀ k < body.length, ¬ delimiter <+: (body ++ delimiter).drop k) (rest : List Char) :
    afterDelimiter? delimiter (body ++ delimiter ++ rest) =
      some (body.length + delimiter.length) := by
  -- the delimiter stands behind the body and nowhere before
  have hfound : Text.findPattern? delimiter (body ++ delimiter ++ rest) = some body.length := by
    refine Text.findPattern?_eq_some_iff.mpr ⟨?_, ?_, ?_⟩
    · rw [List.append_assoc, List.length_append]
      exact Nat.le_add_right _ _
    · rw [List.append_assoc, List.drop_left]
      exact List.prefix_append _ _
    · intro k hlt hprefix
      apply hfirst k hlt
      have hle : k ≤ (body ++ delimiter).length := by
        rw [List.length_append]
        omega
      rw [List.drop_append_of_le_length hle] at hprefix
      apply List.prefix_of_prefix_length_le hprefix (List.prefix_append _ _)
      rw [List.length_drop, List.length_append]
      omega
  rw [afterDelimiter?, hfound]
  rfl

theorem SegmentCase.of_dollarString {tag body : List Char} (hrule : rules.dollarStrings = true)
    (htag : IsTag tag) (hfirst : ∀ k < body.length,
      ¬ dollarDelimiter tag <+: (body ++ dollarDelimiter tag).drop k)
    (hbefore : endsWordBeforeDollar before = false) :
    SegmentCase rules before '$' (tag ++ ['$'] ++ body ++ dollarDelimiter tag ++ rest) .quoted
      (tag ++ ['$'] ++ body ++ dollarDelimiter tag).length := by
  have htext : tag ++ ['$'] ++ body ++ dollarDelimiter tag ++ rest =
      tag ++ '$' :: (body ++ dollarDelimiter tag ++ rest) := by simp
  -- the tag opens, and the first delimiter behind it closes
  have hopen :
      dollarOpening? rules before '$' (tag ++ '$' :: (body ++ dollarDelimiter tag ++ rest)) =
      some tag := by
    rw [dollarOpening?, if_pos ⟨rfl, hrule, by rw [hbefore]; rfl⟩]
    exact dollarTag?_eq_some_iff.mpr ⟨⟨_, rfl⟩, htag⟩
  have hclose := afterDelimiter?_of_first hfirst rest
  have hdrop : (tag ++ '$' :: (body ++ dollarDelimiter tag ++ rest)).drop (tag.length + 1) =
      body ++ dollarDelimiter tag ++ rest := by simp
  have hlength : (tag ++ ['$'] ++ body ++ dollarDelimiter tag).length =
      tag.length + 1 + (body.length + (dollarDelimiter tag).length) := by
    simp only [List.length_append, List.length_singleton]
    omega
  rw [htext, hlength]
  refine .dollar hopen ?_
  rw [hdrop]
  exact hclose

/-- A kept segment is followed by what is shown of the rest. -/
theorem StripsTo.segment {kind : SegmentKind}
    (h : SegmentCase rules before c (inside ++ rest) kind inside.length)
    (hkept : kind.isKept = true)
    (hrest : StripsTo rules (lastCharacter (some c) inside) rest result) :
    StripsTo rules before (c :: inside ++ rest) (c :: inside ++ result) := by
  have hle : inside.length ≤ (inside ++ rest).length := by
    rw [List.length_append]
    exact Nat.le_add_right _ _
  exact StripsTo.kept (covers_segment h.segmentAt_eq hkept hle) hrest

/-! ## Texts of written segments -/

/-- Quoted text in quotes `c` and `quote`, followed by segments, is stripped as if the segments
stood apart from it: what starts with its closing quote goes on with it. -/
def StripsBehindQuote (rules : QuoteRules) (segments : List Segment) : Prop :=
  ∀ c quote escape body, quotation? rules c = some (quote, escape) →
    QuotedBody quote escape body → StandApart (some quote) segments →
    (c = '[' → (segments.flatMap Segment.text).head? ≠ some ']') →
    ∀ before, StripsTo rules before (c :: body ++ [quote] ++ segments.flatMap Segment.text)
      (c :: body ++ [quote] ++ segments.flatMap Segment.stripped)

/-- The text of segments that stand apart is stripped segment by segment. -/
def StripsApart (rules : QuoteRules) (segments : List Segment) : Prop :=
  ∀ before, StandApart before segments →
    StripsTo rules before (segments.flatMap Segment.text) (segments.flatMap Segment.stripped)

section

variable {segment : Segment} {rest : List Segment}

theorem lastCharacter_quoted (before : Option Char) (c : Char) (body : List Char) (quote : Char) :
    lastCharacter before (c :: body ++ [quote]) = some quote := by
  rw [lastCharacter_append]
  rfl

/-- A segment is stripped on its own, unless it is quoted text, which may go on. -/
theorem stripsApart_cons (h : IsSegmented rules (segment :: rest)) (hrest : StripsApart rules rest)
    (hquoted : StripsBehindQuote rules rest) : StripsApart rules (segment :: rest) := by
  intro before hapart
  obtain ⟨hwritten, hline, -⟩ := h
  obtain ⟨hdollar, hbracket, hapart⟩ := hapart
  rw [List.flatMap_cons, List.flatMap_cons]
  cases hwritten with
  | @code text hcode =>
      exact (hrest _ hapart).kept (covers_of_isCode hcode before _)
  | @quoted c quote escape body hopen hbody =>
      -- what may come behind a quote depends on the quote
      rw [lastCharacter_quoted] at hapart
      refine hquoted c quote escape body hopen hbody hapart ?_ before
      rintro rfl
      exact hbracket rfl rfl
  | @dollar tag body hrule htag hfirst =>
      exact (hrest _ hapart).segment
        (SegmentCase.of_dollarString hrule htag hfirst (hdollar rfl rfl)) rfl
  | @lineComment body hbody =>
      exact (hrest _ hapart).comment (SegmentCase.of_lineComment hbody (hline rfl rfl))
  | @blockComment body hbody =>
      exact (hrest _ hapart).comment (SegmentCase.of_blockBody hbody)

/-- Of the segments only quoted text starts with a quote that closes one. -/
theorem exists_quoted_of_head? {c quote : Char} {escape : Option Char}
    (hopen : quotation? rules c = some (quote, escape)) (hbracket : c ≠ '[')
    (h : IsWritten rules segment) (hhead : segment.text.head? = some quote) :
    ∃ body, segment = ⟨.quoted, quote :: body ++ [quote]⟩ ∧ QuotedBody quote escape body := by
  -- a quote that is no bracket closes as it opens
  obtain ⟨rfl, hquote⟩ : quote = c ∧ quote ∈ ['\'', '"', '\x60'] := by
    rcases quotation?_eq_some hopen with ⟨rfl, rfl, -⟩ | ⟨rfl | ⟨rfl, -⟩, rfl, -⟩ | ⟨hc, -⟩
    · exact ⟨rfl, by decide⟩
    · exact ⟨rfl, by decide⟩
    · exact ⟨rfl, by decide⟩
    · exact absurd hc hbracket
  cases h with
  | @code text hcode =>
      -- code holds no quote, and the other segments start with a mark that is none
      have hmem : quote ∈ text := List.mem_of_mem_head? hhead
      have hnot := hcode.noQuote quote hmem
      simp only [List.mem_cons, List.not_mem_nil, or_false] at hquote hnot
      tauto
  | @quoted c other otherEscape body hother hbody =>
      obtain rfl : c = quote := Option.some.inj hhead
      obtain ⟨rfl, rfl⟩ := Prod.mk.inj (Option.some.inj (hopen.symm.trans hother))
      exact ⟨body, rfl, hbody⟩
  | dollar | lineComment | blockComment =>
      obtain rfl := Option.some.inj hhead
      exact absurd hquote (by decide)

theorem stripped_of_text_eq_nil (h : segment.text = []) : segment.stripped = [] := by
  unfold Segment.stripped
  rw [h]
  cases segment.kind <;> rfl

/-- Quoted text is closed by what follows it, or goes on with the next segment. -/
theorem stripsBehindQuote_cons (h : IsSegmented rules (segment :: rest))
    (hapart : StripsApart rules (segment :: rest)) (hquoted : StripsBehindQuote rules rest) :
    StripsBehindQuote rules (segment :: rest) := by
  intro c quote escape body hopen hbody hstand hbracket before
  by_cases hhead : ((segment :: rest).flatMap Segment.text).head? = some quote
  · have hc : c ≠ '[' := by
      rintro rfl
      exact hbracket rfl (quote_of_bracket hopen ▸ hhead)
    rw [List.flatMap_cons] at hhead
    rw [List.flatMap_cons, List.flatMap_cons]
    by_cases hnil : segment.text = []
    · -- an empty segment changes nothing
      rw [hnil, stripped_of_text_eq_nil hnil]
      have hstand' : StandApart (some quote) rest := by
        have hrest := hstand.2.2
        rwa [hnil] at hrest
      exact hquoted c quote escape body hopen hbody hstand' (fun h => absurd h hc) before
    · rw [List.head?_append_of_ne_nil _ hnil] at hhead
      obtain ⟨inner, rfl, hinner⟩ := exists_quoted_of_head? hopen hc h.1 hhead
      have hstand' : StandApart (some quote) rest := by
        have hrest := hstand.2.2
        rwa [lastCharacter_quoted] at hrest
      have hboth : QuotedBody quote escape (body ++ quote :: quote :: inner) :=
        hbody.append (.doubled (escape_ne_quote hopen) hinner)
      have hjoined := hquoted c quote escape _ hopen hboth hstand' (fun h => absurd h hc) before
      show StripsTo rules before
        (c :: body ++ [quote] ++ (quote :: inner ++ [quote] ++ rest.flatMap Segment.text))
        (c :: body ++ [quote] ++ (quote :: inner ++ [quote] ++ rest.flatMap Segment.stripped))
      simpa only [List.cons_append, List.append_assoc, List.nil_append] using hjoined
  · have hcase : SegmentCase rules before c
        (body ++ [quote] ++ (segment :: rest).flatMap Segment.text) .quoted
        (body ++ [quote]).length := SegmentCase.of_quotedBody hopen hbody hhead
    apply StripsTo.segment hcase rfl
    rw [lastCharacter_append]
    exact hapart _ hstand

end

theorem strips_of_isSegmented {segments : List Segment} (h : IsSegmented rules segments) :
    StripsApart rules segments ∧ StripsBehindQuote rules segments := by
  induction segments with
  | nil =>
      refine ⟨fun before _ => .nil before, ?_⟩
      intro c quote escape body hopen hbody _ _ before
      have hcase : SegmentCase rules before c (body ++ [quote] ++ []) .quoted
          (body ++ [quote]).length := SegmentCase.of_quotedBody hopen hbody (by simp)
      exact StripsTo.segment hcase rfl (.nil _)
  | cons segment rest ih =>
      obtain ⟨hrest, hquoted⟩ := ih h.2.2
      have hapart := stripsApart_cons h hrest hquoted
      exact ⟨hapart, stripsBehindQuote_cons h hapart hquoted⟩

end

/-- Of a text written as segments that stand apart, stripping blanks the comments and nothing else,
and nothing is left open. -/
theorem stripComments_of_isSegmented {rules : QuoteRules} {segments : List Segment}
    (h : IsSegmented rules segments) (hapart : StandApart none segments) :
    stripComments rules (segments.flatMap Segment.text) =
      ⟨segments.flatMap Segment.stripped, []⟩ := by
  obtain ⟨hstripped, hclosed⟩ := (strips_of_isSegmented h).1 none hapart
  calc stripComments rules (segments.flatMap Segment.text)
      = ⟨strippedFrom rules none (segments.flatMap Segment.text),
          issuesFrom 0 (segmentsFrom rules none 0 (segments.flatMap Segment.text))⟩ := rfl
    _ = ⟨segments.flatMap Segment.stripped, []⟩ := by
        rw [hstripped, issuesFrom_of_isClosed hclosed]

/-- Segments of every kind: two strings whose quotes meet, a dollar string, comments in a
comment. -/
def mixedSegments : List Segment :=
  [⟨.code, ['a', '=']⟩, ⟨.quoted, ['\'', '\\', '\'', '\'']⟩, ⟨.quoted, ['\'', '-', '-', '\'']⟩,
    ⟨.quoted, ['$', 't', '$', '$', '\'', '$', 't', '$']⟩,
    ⟨.comment, ['/', '*', '\n', '/', '*', '*', '/', '\'', '*', '/']⟩,
    ⟨.quoted, ['[', '/', '*', ']']⟩, ⟨.comment, ['-', '-', '[']⟩]

theorem stripComments_mixedSegments :
    IsSegmented ⟨true, true, true, true, true⟩ mixedSegments ∧ StandApart none mixedSegments ∧
      stripComments ⟨true, true, true, true, true⟩ (mixedSegments.flatMap Segment.text) =
        ⟨mixedSegments.flatMap Segment.stripped, []⟩ := by
  -- one segment of each form, in the order in which they stand
  have hsegmented : IsSegmented ⟨true, true, true, true, true⟩ mixedSegments := by
    refine ⟨.code ⟨by simp, by decide, by decide, ?_⟩, by simp, ?_⟩
    · rintro c ⟨⟩
      decide
    refine ⟨@IsWritten.quoted _ '\'' '\'' (some '\\') ['\\', '\''] rfl (.escaped rfl .nil),
      by simp, ?_⟩
    refine ⟨@IsWritten.quoted _ '\'' '\'' (some '\\') ['-', '-'] rfl ?_, by simp, ?_⟩
    · exact .plain (by decide) (by decide) (.plain (by decide) (by decide) .nil)
    refine ⟨@IsWritten.dollar _ ['t'] ['$', '\''] rfl ⟨List.forall_mem_singleton.mpr rfl, ?_⟩
      (by decide), by simp, ?_⟩
    · rintro c ⟨⟩
      rfl
    refine ⟨@IsWritten.blockComment _ ['\n', '/', '*', '*', '/', '\'', '*', '/'] ?_, by simp, ?_⟩
    · refine .char (by decide) (by decide) (@BlockBody.nest _ ['*', '/'] _ rfl .close ?_)
      exact .char (by decide) (by decide) .close
    refine ⟨@IsWritten.quoted _ '[' ']' none ['/', '*'] rfl ?_, by simp, ?_⟩
    · exact .plain (by decide) (by decide) (.plain (by decide) (by decide) .nil)
    exact ⟨@IsWritten.lineComment _ ['['] (by decide), by simp, trivial⟩
  have hapart : StandApart none mixedSegments := by
    simp [StandApart, mixedSegments]
    decide
  exact ⟨hsegmented, hapart, stripComments_of_isSegmented hsegmented hapart⟩

/-- Segments that do not stand apart: a dollar string after a word, and a closing bracket after a
name in brackets.  Stripping takes the quote in the string for the start of another, and the name
for one that is not closed. -/
theorem stripComments_runTogether :
    let word : List Segment := [⟨.code, ['a']⟩, ⟨.quoted, ['$', '$', '\'', '$', '$']⟩]
    let name : List Segment := [⟨.quoted, ['[', 'a', ']']⟩, ⟨.code, [']']⟩]
    let rules := Dialect.mssql.quoteRules
    (IsSegmented rules word ∧ stripComments rules (word.flatMap Segment.text) ≠
        ⟨word.flatMap Segment.stripped, []⟩) ∧
      IsSegmented rules name ∧ stripComments rules (name.flatMap Segment.text) ≠
        ⟨name.flatMap Segment.stripped, []⟩ := by
  intro word name rules
  have hcode : ∀ c ∈ ['a', ']'], IsWritten rules ⟨.code, [c]⟩ := by
    intro c hmem
    apply IsWritten.code
    rw [List.mem_cons, List.mem_singleton] at hmem
    rcases hmem with rfl | rfl <;> exact ⟨by simp, by decide, by decide, by simp⟩
  refine ⟨⟨⟨hcode 'a' (by decide), by simp, ?_⟩, by decide⟩,
    ⟨?_, by simp, ⟨hcode ']' (by decide), by simp, trivial⟩⟩, by decide⟩
  · exact ⟨@IsWritten.dollar _ [] ['\''] rfl ⟨by simp, by simp⟩ (by decide), by simp, trivial⟩
  · exact @IsWritten.quoted _ '[' ']' none ['a'] rfl (.plain (by decide) (by decide) .nil)

end TableLineage.Sql
