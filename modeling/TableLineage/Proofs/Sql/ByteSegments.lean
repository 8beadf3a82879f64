import TableLineage.Proofs.Sql.Fading
import TableLineage.Proofs.Sql.SpelledText

/-!
# Stripping bytes

Comments can be found and blanked without decoding the text: `stripBytes` reads every byte as a
character of its own, looks for segments among these and writes one space over each byte of a
comment.  It never looks at what characters the bytes spell, and after a backslash it may go on in
the middle of one.

`stripBytes_bytes` says that this is the same as stripping the text: the bytes that come out are
those of the stripped text, with the same issues.  The proof follows the segments of the text: one
that starts in ASCII is found among the bytes with the same kind (`SegmentCase.spelled`), and the
bytes of a character outside ASCII are code.
-/

namespace TableLineage.Sql

/-! ## Segments of bytes -/

/-- The byte that is written for a byte of a comment, both as characters. -/
def blankedByte (c : Char) : Char :=
  if c = '\n' ∨ c = '\r' then c else ' '

/-- The bytes that are written for a segment of bytes. -/
def Segment.overwritten (segment : Segment) : List Char :=
  match segment.kind with
  | .code | .quoted => segment.text
  | .comment | .openComment | .openQuote _ => segment.text.map blankedByte

/-- The issues of segments of bytes that start at an offset. -/
def byteIssuesFrom (offset : Nat) : List Segment → List StripIssue
  | [] => []
  | segment :: rest =>
    (segment.issueAt? offset).toList ++ byteIssuesFrom (offset + segment.text.length) rest

/-- Bytes without comments, and what went wrong. -/
structure StrippedBytes where
  bytes : List UInt8
  issues : List StripIssue
  deriving DecidableEq, Repr

/-- The bytes with the comments blanked. -/
def stripBytes (rules : QuoteRules) (sql : List UInt8) : StrippedBytes where
  bytes := ((segments rules (sql.map byteCharacter)).flatMap Segment.overwritten).map
    fun c => UInt8.ofNat c.toNat
  issues := byteIssuesFrom 0 (segments rules (sql.map byteCharacter))

section

variable {rules : QuoteRules} {before other : Option Char} {c : Char}
  {text rest front : List Char} {kind : SegmentKind} {more : Nat}

/-! ## Dollar strings -/

theorem toNat_lt_of_isAlphanum (h : c.isAlphanum = true) : c.toNat < 128 := by
  unfold Char.isAlphanum Char.isAlpha Char.isUpper Char.isLower Char.isDigit at h
  simp only [Bool.or_eq_true, Bool.and_eq_true, decide_eq_true_eq, ge_iff_le,
    UInt32.le_iff_toNat_le] at h
  have hnumbers : (65 ≤ c.toNat ∧ c.toNat ≤ 90) ∨ (97 ≤ c.toNat ∧ c.toNat ≤ 122) ∨
      (48 ≤ c.toNat ∧ c.toNat ≤ 57) := by
    simpa [or_assoc] using h
  omega

theorem toNat_lt_of_isTagPart (h : isTagPart c = true) : c.toNat < 128 := by
  rcases Bool.or_eq_true_iff.mp h with hletter | hunderscore
  · exact toNat_lt_of_isAlphanum hletter
  · rw [eq_of_beq hunderscore]
    decide

theorem endsWordBeforeDollar_of_foreign (h : 128 ≤ c.toNat) :
    endsWordBeforeDollar (some c) = false := by
  have hletter : c.isAlphanum = false := by
    rw [Bool.eq_false_iff]
    intro hletter
    exact absurd (toNat_lt_of_isAlphanum hletter) (Nat.not_lt.mpr h)
  have hunderscore : (c == '_') = false := beq_false_of_ne (ne_of_foreign h (by decide))
  have hdollar : (c == '$') = false := beq_false_of_ne (ne_of_foreign h (by decide))
  simp only [endsWordBeforeDollar, hletter, hunderscore, hdollar, Bool.or_self]

/-- A tag with the dollar sign behind it is ASCII. -/
theorem toNat_lt_of_isTag {tag : List Char} (h : IsTag tag) :
    ∀ d ∈ tag ++ ['$'], d.toNat < 128 := by
  rw [List.forall_mem_append]
  refine ⟨?_, List.forall_mem_singleton.mpr (by decide)⟩
  intro d hd
  exact toNat_lt_of_isTagPart (h.1 d hd)

theorem dollarTag?_spelled (text : List Char) : dollarTag? (spelled text) = dollarTag? text := by
  have hprefix : ∀ tag t : List Char, (∃ tail, t = tag ++ '$' :: tail) ↔ tag ++ ['$'] <+: t := by
    intro tag t
    constructor
    · rintro ⟨tail, rfl⟩
      exact ⟨tail, (List.append_cons tag '$' tail).symm⟩
    · rintro ⟨tail, rfl⟩
      exact ⟨tail, (List.append_cons tag '$' tail).symm⟩
  ext tag
  rw [dollarTag?_eq_some_iff, dollarTag?_eq_some_iff, hprefix, hprefix]
  apply and_congr_left
  intro htag
  exact prefix_spelled_iff (toNat_lt_of_isTag htag)

theorem dollarOpening?_spelled (hbefore : endsWordBeforeDollar other = endsWordBeforeDollar before)
    (rest : List Char) :
    dollarOpening? rules other c (spelled rest) = dollarOpening? rules before c rest := by
  rw [dollarOpening?, hbefore, dollarTag?_spelled, dollarOpening?]

/-- The end of a delimiter is found at its byte. -/
theorem findsSpelled_afterDelimiter? {d : Char} {pattern : List Char}
    (hpattern : ∀ e ∈ d :: pattern, e.toNat < 128) (text : List Char) :
    FindsSpelled (afterDelimiter? (d :: pattern)) text := by
  have hfind := findsSpelled_findPattern? hpattern text
  unfold FindsSpelled afterDelimiter? at *
  rw [hfind, Option.map_map, Option.map_map]
  cases hstart : Text.findPattern? (d :: pattern) text with
  | none => rfl
  | some start =>
      obtain ⟨-, ⟨tail, htail⟩, -⟩ := Text.findPattern?_eq_some_iff.mp hstart
      have htake : text.take (start + (d :: pattern).length) = text.take start ++ d :: pattern := by
        rw [List.take_add, ← htail, List.take_left]
      show some ((spelled (text.take start)).length + (d :: pattern).length) =
        some (spelled (text.take (start + (d :: pattern).length))).length
      rw [htake, spelled_append, List.length_append, spelled_of_ascii hpattern]

/-! ## Segments that start in ASCII -/

section Opening

variable {tag tail : List Char}

theorem drop_opening : (tag ++ '$' :: tail).drop (tag.length + 1) = tail := by
  rw [List.append_cons]
  exact List.drop_left' List.length_append

theorem take_opening {count : Nat} :
    (tag ++ '$' :: tail).take (tag.length + 1 + count) = tag ++ ['$'] ++ tail.take count := by
  have hlength : tag.length + 1 = (tag ++ ['$']).length := by simp
  rw [List.append_cons, hlength, List.take_length_add_append]

theorem spelled_opening (h : IsTag tag) :
    spelled (tag ++ '$' :: tail) = tag ++ '$' :: spelled tail := by
  rw [List.append_cons, spelled_append, spelled_of_ascii (toNat_lt_of_isTag h), ← List.append_cons]

theorem length_spelled_opening (h : IsTag tag) (text : List Char) :
    (spelled (tag ++ ['$'] ++ text)).length = tag.length + 1 + (spelled text).length := by
  rw [spelled_append, spelled_of_ascii (toNat_lt_of_isTag h), List.length_append,
    List.length_append, List.length_singleton]

theorem drop_spelled_opening (h : IsTag tag) :
    (spelled (tag ++ '$' :: tail)).drop (tag.length + 1) = spelled tail := by
  rw [spelled_opening h, drop_opening]

theorem findsSpelled_tag (h : IsTag tag) (text : List Char) :
    FindsSpelled (afterDelimiter? ('$' :: tag ++ ['$'])) text :=
  findsSpelled_afterDelimiter? (List.forall_mem_cons.mpr ⟨by decide, toNat_lt_of_isTag h⟩) text

end Opening

theorem ascii_of_quotation? {quote : Char} {escape : Option Char}
    (h : quotation? rules c = some (quote, escape)) :
    quote.toNat < 128 ∧ ∀ e, escape = some e → e.toNat < 128 := by
  rcases quotation?_eq_some h with ⟨-, rfl, rfl⟩ | ⟨rfl | ⟨rfl, -⟩, rfl, rfl⟩ | ⟨-, -, rfl, rfl⟩
  · refine ⟨by decide, ?_⟩
    intro e he
    obtain ⟨-, he⟩ := Option.ite_none_right_eq_some.mp he
    obtain rfl := Option.some.inj he
    decide
  all_goals exact ⟨by decide, by simp⟩

/-- A segment that starts with an ASCII character is found among the bytes, with the bytes of the
characters that it takes. -/
theorem SegmentCase.spelled (h : SegmentCase rules before c rest kind more)
    (hbefore : endsWordBeforeDollar other = endsWordBeforeDollar before) :
    SegmentCase rules other c (spelled rest) kind (Sql.spelled (rest.take more)).length := by
  cases h with
  | line hc hhead =>
      have htake : rest.take (rest.takeWhile (· != '\n')).length = rest.takeWhile (· != '\n') :=
        (List.prefix_iff_eq_take.mp (List.takeWhile_prefix _)).symm
      rw [htake, ← takeWhile_line_spelled]
      exact .line hc ((head_spelled_iff (by decide)).mpr hhead)
  | @block position hc hhead hclose =>
      obtain ⟨tail, rfl⟩ := List.head?_eq_some_iff.mp hhead
      have hfind := findsSpelled_blockEnd? rules.nestedComments 0 tail
      rw [FindsSpelled, show blockEnd? _ _ tail = _ from hclose] at hfind
      rw [List.take_succ_cons, spelled_cons_of_ascii (by decide), spelled_cons_of_ascii (by decide)]
      exact .block hc rfl hfind
  | openBlock hc hhead hclose =>
      obtain ⟨tail, rfl⟩ := List.head?_eq_some_iff.mp hhead
      have hfind := findsSpelled_blockEnd? rules.nestedComments 0 tail
      rw [FindsSpelled, show blockEnd? _ _ tail = _ from hclose] at hfind
      rw [List.take_length, spelled_cons_of_ascii (by decide)]
      exact .openBlock hc rfl hfind
  | @quoted quote escape position hopen hclose =>
      obtain ⟨hquote, hescape⟩ := ascii_of_quotation? hopen
      have hfind := findsSpelled_closingQuote? hquote hescape rest
      rw [FindsSpelled, hclose] at hfind
      -- the segment takes the closing quote too, which is a single byte
      obtain ⟨body, tail, rfl, rfl, -⟩ := closingQuote?_eq_some_iff.mp hclose
      rw [Option.map_some, List.take_left] at hfind
      have htake : (body ++ quote :: tail).take (body.length + 1) = body ++ [quote] := by
        rw [List.append_cons]
        exact List.take_left' (by simp)
      have hlength : (Sql.spelled (body ++ [quote])).length = (Sql.spelled body).length + 1 := by
        have hquoteSpelled : Sql.spelled [quote] = [quote] := spelled_cons_of_ascii hquote []
        rw [spelled_append, List.length_append, hquoteSpelled]
        rfl
      rw [htake, hlength]
      exact .quoted hopen hfind
  | openQuote hopen hclose =>
      obtain ⟨hquote, hescape⟩ := ascii_of_quotation? hopen
      have hfind := findsSpelled_closingQuote? hquote hescape rest
      rw [FindsSpelled, hclose] at hfind
      rw [List.take_length]
      exact .openQuote hopen hfind
  | @dollar tag position hopen hclose =>
      have hopens := (dollarOpening?_spelled hbefore rest).trans hopen
      obtain ⟨-, -, -, htag⟩ := dollarOpening?_eq_some hopen
      obtain ⟨⟨tail, rfl⟩, hisTag⟩ := dollarTag?_eq_some_iff.mp htag
      rw [drop_opening] at hclose
      have hfind := findsSpelled_tag hisTag tail
      rw [FindsSpelled, hclose, ← drop_spelled_opening hisTag] at hfind
      rw [take_opening, length_spelled_opening hisTag]
      exact .dollar hopens hfind
  | @openDollar tag hopen hclose =>
      have hopens := (dollarOpening?_spelled hbefore rest).trans hopen
      obtain ⟨-, -, -, htag⟩ := dollarOpening?_eq_some hopen
      obtain ⟨⟨tail, rfl⟩, hisTag⟩ := dollarTag?_eq_some_iff.mp htag
      rw [drop_opening] at hclose
      have hfind := findsSpelled_tag hisTag tail
      rw [FindsSpelled, hclose, ← drop_spelled_opening hisTag] at hfind
      rw [List.take_length]
      exact .openDollar hopens hfind
  | code hline hblock hquote hdollar =>
      refine .code ?_ ?_ hquote ((dollarOpening?_spelled hbefore rest).trans hdollar)
      · rwa [head_spelled_iff (by decide)]
      · rwa [head_spelled_iff (by decide)]

theorem take_spelled (text : List Char) (count : Nat) :
    (spelled text).take (spelled (text.take count)).length = spelled (text.take count) := by
  have happend := spelled_append (text.take count) (text.drop count)
  rw [List.take_append_drop] at happend
  rw [happend, List.take_left]

theorem drop_spelled (text : List Char) (count : Nat) :
    (spelled text).drop (spelled (text.take count)).length = spelled (text.drop count) := by
  have happend := spelled_append (text.take count) (text.drop count)
  rw [List.take_append_drop] at happend
  rw [happend, List.drop_left]

theorem segmentsFrom_spelled (h : SegmentCase rules before c rest kind more)
    (hbefore : endsWordBeforeDollar other = endsWordBeforeDollar before) (hc : c.toNat < 128) :
    segmentsFrom rules other 0 (spelled (c :: rest)) =
      ⟨kind, spelled (c :: rest.take more)⟩ ::
        segmentsFrom rules (lastCharacter (some c) (spelled (rest.take more))) 0
          (spelled (rest.drop more)) := by
  rw [spelled_cons_of_ascii hc, segmentsFrom_segment (h.spelled hbefore), take_spelled,
    drop_spelled, spelled_cons_of_ascii hc]

/-! ## Characters outside ASCII -/

theorem isQuiet_of_foreign (h : 128 ≤ c.toNat) : isQuiet c = true := by
  rw [isQuiet, decide_eq_true_eq]
  intro hmem
  have hascii : ∀ d ∈ ['-', '/', '\'', '"', '\x60', '[', '$'], d.toNat < 128 := by simp
  exact ne_of_foreign h (hascii c hmem) rfl

/-- Each byte outside ASCII is code. -/
theorem segmentsFrom_foreign_append (h : IsForeign front) (rest : List Char) :
    segmentsFrom rules before 0 (front ++ rest) =
      front.map (fun d => ⟨.code, [d]⟩) ++
        segmentsFrom rules (lastCharacter before front) 0 rest := by
  induction front generalizing before with
  | nil => rfl
  | cons c front ih =>
      obtain ⟨hc, hfront⟩ := List.forall_mem_cons.mp h
      rw [List.cons_append, segmentsFrom_cons, segmentAt_of_isQuiet (isQuiet_of_foreign hc),
        ih hfront]
      rfl

theorem flatMap_overwritten_code (front : List Char) :
    (front.map fun d => (⟨.code, [d]⟩ : Segment)).flatMap Segment.overwritten = front := by
  induction front with
  | nil => rfl
  | cons d front ih =>
      rw [List.map_cons, List.flatMap_cons, ih]
      rfl

theorem byteIssuesFrom_code_append (offset : Nat) (front : List Char) (segments : List Segment) :
    byteIssuesFrom offset (front.map (fun d => ⟨.code, [d]⟩) ++ segments) =
      byteIssuesFrom (offset + front.length) segments := by
  induction front generalizing offset with
  | nil => rfl
  | cons d front ih =>
      -- a code segment has no issue, so only the offset moves on
      calc byteIssuesFrom offset (⟨.code, [d]⟩ :: (front.map (fun d => ⟨.code, [d]⟩) ++ segments))
          = byteIssuesFrom (offset + 1) (front.map (fun d => ⟨.code, [d]⟩) ++ segments) := rfl
        _ = byteIssuesFrom (offset + 1 + front.length) segments := ih (offset + 1)
        _ = byteIssuesFrom (offset + (front.length + 1)) segments := by
            rw [Nat.add_assoc, Nat.add_comm 1]

theorem endsWordBeforeDollar_foreign (h : IsForeign front) (hne : front ≠ []) :
    endsWordBeforeDollar (lastCharacter before front) = false := by
  obtain ⟨d, hmem, hlast⟩ := lastCharacter_of_ne_nil hne
  rw [hlast]
  exact endsWordBeforeDollar_of_foreign (h d hmem)

/-- The last byte of a text belongs to a word exactly if the last character does. -/
theorem endsWordBeforeDollar_spelled (text : List Char)
    (hbefore : endsWordBeforeDollar other = endsWordBeforeDollar before) :
    endsWordBeforeDollar (lastCharacter other (spelled text)) =
      endsWordBeforeDollar (lastCharacter before text) := by
  induction text generalizing before other with
  | nil => exact hbefore
  | cons c text ih =>
      by_cases hc : c.toNat < 128
      · rw [spelled_cons_of_ascii hc, lastCharacter_cons, lastCharacter_cons]
        exact ih rfl
      · have hforeign := Nat.le_of_not_lt hc
        obtain ⟨front, hfront, hne, -, hspelled⟩ := exists_spelled_cons hforeign
        rw [hspelled, lastCharacter_append, lastCharacter_cons]
        apply ih
        rw [endsWordBeforeDollar_of_foreign hforeign]
        exact endsWordBeforeDollar_foreign hfront hne

/-! ## The whole text -/

theorem blanked_spelled (c : Char) : (spelled [c]).map blankedByte = spelled (blanked c) := by
  by_cases hc : c.toNat < 128
  · have hsize : c.utf8Size = 1 := Char.utf8Size_eq_one_iff.mpr (Nat.le_of_lt_succ hc)
    rw [spelled_cons_of_ascii hc, blanked, hsize]
    show [blankedByte c] = _
    unfold blankedByte
    split_ifs
    · rw [spelled_cons_of_ascii hc]
      rfl
    · rfl
  · -- the bytes of another character are no line ends, so each becomes a space
    have hforeign := Nat.le_of_not_lt hc
    obtain ⟨front, hfront, -, hlength, hspelled⟩ := exists_spelled_cons hforeign
    have hend : ∀ d : Char, 128 ≤ d.toNat → ¬ (d = '\n' ∨ d = '\r') := by
      intro d hd
      exact not_or.mpr ⟨ne_of_foreign hd (by decide), ne_of_foreign hd (by decide)⟩
    have hspaces : spelled (List.replicate c.utf8Size ' ') = List.replicate c.utf8Size ' ' := by
      apply spelled_of_ascii
      intro d hd
      rw [List.eq_of_mem_replicate hd]
      decide
    rw [hspelled, spelled_nil, List.append_nil, blanked, if_neg (hend c hforeign), hspaces]
    rw [List.eq_replicate_iff, List.length_map]
    refine ⟨hlength, ?_⟩
    intro e he
    obtain ⟨d, hd, rfl⟩ := List.mem_map.mp he
    exact if_neg (hend d (hfront d hd))

theorem overwritten_spelled (kind : SegmentKind) (text : List Char) :
    Segment.overwritten ⟨kind, spelled text⟩ = spelled (Segment.stripped ⟨kind, text⟩) := by
  have hblanked : (spelled text).map blankedByte = spelled (text.flatMap blanked) := by
    induction text with
    | nil => rfl
    | cons c text ih =>
        calc (spelled (c :: text)).map blankedByte
            = (spelled [c]).map blankedByte ++ (spelled text).map blankedByte := by
              rw [← List.map_append, ← spelled_append, List.singleton_append]
          _ = spelled (blanked c) ++ spelled (text.flatMap blanked) := by
              rw [blanked_spelled, ih]
          _ = spelled ((c :: text).flatMap blanked) := by
              rw [← spelled_append, List.flatMap_cons]
  cases kind with
  | code | quoted => rfl
  | comment | openComment | openQuote => exact hblanked

/-- The segments of the bytes are overwritten with what is left of the segments of the text, and
report the same issues. -/
theorem overwritten_segmentsFrom (rules : QuoteRules) (before : Option Char) (text : List Char) :
    ∀ other, endsWordBeforeDollar other = endsWordBeforeDollar before →
      (segmentsFrom rules other 0 (spelled text)).flatMap Segment.overwritten =
          spelled ((segmentsFrom rules before 0 text).flatMap Segment.stripped) ∧
        ∀ offset, byteIssuesFrom offset (segmentsFrom rules other 0 (spelled text)) =
          issuesFrom offset (segmentsFrom rules before 0 text) := by
  induction before, text using segments_induction rules with
  | nil before => exact fun other hbefore => ⟨rfl, fun offset => rfl⟩
  | segment before c text kind more hcase ih =>
      intro other hbefore
      by_cases hc : c.toNat < 128
      · obtain ⟨hoverwritten, hissues⟩ := ih (lastCharacter (some c) (spelled (text.take more)))
          (endsWordBeforeDollar_spelled _ rfl)
        rw [segmentsFrom_spelled hcase hbefore hc, segmentsFrom_segment hcase]
        constructor
        · rw [List.flatMap_cons, List.flatMap_cons, hoverwritten, overwritten_spelled,
            spelled_append]
        · intro offset
          rw [byteIssuesFrom, issuesFrom, hissues, length_spelled]
          rfl
      · have hforeign := Nat.le_of_not_lt hc
        obtain ⟨front, hfront, hne, hlength, hspelled⟩ := exists_spelled_cons hforeign
        -- the segment is the character alone
        obtain ⟨rfl, rfl⟩ := Prod.mk.inj
          ((segmentAt_of_isQuiet (isQuiet_of_foreign hforeign)).symm.trans hcase.segmentAt_eq)
        have hfrontBefore : endsWordBeforeDollar (lastCharacter other front) =
            endsWordBeforeDollar (some c) := by
          rw [endsWordBeforeDollar_of_foreign hforeign]
          exact endsWordBeforeDollar_foreign hfront hne
        obtain ⟨hoverwritten, hissues⟩ := ih _ hfrontBefore
        rw [hspelled, segmentsFrom_foreign_append hfront, segmentsFrom_segment hcase]
        constructor
        · rw [List.flatMap_append, flatMap_overwritten_code, List.flatMap_cons,
            show Segment.stripped ⟨.code, c :: text.take 0⟩ = [c] from rfl, List.singleton_append,
            hspelled]
          exact congrArg (front ++ ·) hoverwritten
        · intro offset
          rw [byteIssuesFrom_code_append, hlength]
          exact hissues _

/-- Stripping the bytes of a text gives the bytes of the stripped text, and the same issues. -/
theorem stripBytes_bytes (rules : QuoteRules) (sql : List Char) :
    stripBytes rules (Text.bytes sql) =
      ⟨Text.bytes (stripComments rules sql).text, (stripComments rules sql).issues⟩ := by
  obtain ⟨hoverwritten, hissues⟩ := overwritten_segmentsFrom rules none sql none rfl
  have hbytes : ∀ text : List Char,
      (spelled text).map (fun c => UInt8.ofNat c.toNat) = Text.bytes text := by
    intro text
    rw [spelled, List.map_map]
    exact List.map_id'' (fun b => ofNat_toNat_byteCharacter b) _
  have htext : ((segmentsFrom rules none 0 (spelled sql)).flatMap Segment.overwritten).map
      (fun c => UInt8.ofNat c.toNat) = Text.bytes (stripComments rules sql).text := by
    rw [hoverwritten, hbytes]
    rfl
  exact congrArg₂ StrippedBytes.mk htext (hissues 0)

end

end TableLineage.Sql
