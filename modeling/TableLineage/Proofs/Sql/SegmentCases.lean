import TableLineage.Proofs.Sql.ClosedForms
import TableLineage.Proofs.Sql.Cover

/-!
# The cases of a segment

What the segment at a character is depends on the opening delimiter and on whether it is closed.
`SegmentCase` lists the cases, one constructor for each, and `segmentAt_eq_iff` says that these are
all.  What is shown of segments elsewhere goes by these cases and does not look into `segmentAt`.

Text is followed segment by segment with `segments_induction`.
-/

namespace TableLineage.Sql

/-- The closing quote and the escape character of the quoted text that a character opens. -/
def quotation? (rules : QuoteRules) (c : Char) : Option (Char × Option Char) :=
  if c = '\'' then some ('\'', if rules.backslashEscapes then some '\\' else none)
  else if c = '"' ∨ (c = '\x60' ∧ rules.backtickNames) then some (c, none)
  else if c = '[' ∧ rules.bracketNames then some (']', none)
  else none

/-- The tag of the dollar string that a character opens. -/
def dollarOpening? (rules : QuoteRules) (before : Option Char) (c : Char) (rest : List Char) :
    Option (List Char) :=
  if c = '$' ∧ rules.dollarStrings ∧ !endsWordBeforeDollar before then dollarTag? rest else none

/-- The kind of the segment at a character and the number of characters that it takes after that. -/
inductive SegmentCase (rules : QuoteRules) (before : Option Char) (c : Char) (rest : List Char) :
    SegmentKind → Nat → Prop
  | line (hc : c = '-') (hhead : rest.head? = some '-') :
      SegmentCase rules before c rest .comment (rest.takeWhile (· != '\n')).length
  | block {position : Nat} (hc : c = '/') (hhead : rest.head? = some '*')
      (hclose : blockEnd? rules.nestedComments 0 rest.tail = some position) :
      SegmentCase rules before c rest .comment (position + 1)
  | openBlock (hc : c = '/') (hhead : rest.head? = some '*')
      (hclose : blockEnd? rules.nestedComments 0 rest.tail = none) :
      SegmentCase rules before c rest .openComment rest.length
  | quoted {quote : Char} {escape : Option Char} {position : Nat}
      (hopen : quotation? rules c = some (quote, escape))
      (hclose : closingQuote? quote escape rest = some position) :
      SegmentCase rules before c rest .quoted (position + 1)
  | openQuote {quote : Char} {escape : Option Char}
      (hopen : quotation? rules c = some (quote, escape))
      (hclose : closingQuote? quote escape rest = none) :
      SegmentCase rules before c rest (.openQuote c) rest.length
  | dollar {tag : List Char} {position : Nat}
      (hopen : dollarOpening? rules before c rest = some tag)
      (hclose : afterDelimiter? ('$' :: tag ++ ['$']) (rest.drop (tag.length + 1)) =
        some position) :
      SegmentCase rules before c rest .quoted (tag.length + 1 + position)
  | openDollar {tag : List Char} (hopen : dollarOpening? rules before c rest = some tag)
      (hclose : afterDelimiter? ('$' :: tag ++ ['$']) (rest.drop (tag.length + 1)) = none) :
      SegmentCase rules before c rest (.openQuote c) rest.length
  | code (hline : ¬ (c = '-' ∧ rest.head? = some '-'))
      (hblock : ¬ (c = '/' ∧ rest.head? = some '*')) (hquote : quotation? rules c = none)
      (hdollar : dollarOpening? rules before c rest = none) :
      SegmentCase rules before c rest .code 0

section

variable {rules : QuoteRules} {before : Option Char} {c : Char} {rest : List Char}
  {kind : SegmentKind} {more : Nat}

/-! ## Opening delimiters -/

theorem quotation?_eq_some {quote : Char} {escape : Option Char}
    (h : quotation? rules c = some (quote, escape)) :
    (c = '\'' ∧ quote = '\'' ∧ escape = if rules.backslashEscapes then some '\\' else none) ∨
      ((c = '"' ∨ (c = '\x60' ∧ rules.backtickNames = true)) ∧ quote = c ∧ escape = none) ∨
      (c = '[' ∧ rules.bracketNames = true ∧ quote = ']' ∧ escape = none) := by
  unfold quotation? at h
  by_cases hsingle : c = '\''
  · rw [if_pos hsingle] at h
    obtain ⟨rfl, rfl⟩ := Prod.mk.inj (Option.some.inj h)
    exact .inl ⟨hsingle, rfl, rfl⟩
  · rw [if_neg hsingle] at h
    by_cases hdouble : c = '"' ∨ (c = '\x60' ∧ rules.backtickNames = true)
    · rw [if_pos hdouble] at h
      obtain ⟨rfl, rfl⟩ := Prod.mk.inj (Option.some.inj h)
      exact .inr (.inl ⟨hdouble, rfl, rfl⟩)
    · rw [if_neg hdouble, Option.ite_none_right_eq_some] at h
      obtain ⟨hbracket, hsome⟩ := h
      obtain ⟨rfl, rfl⟩ := Prod.mk.inj (Option.some.inj hsome)
      exact .inr (.inr ⟨hbracket.1, hbracket.2, rfl, rfl⟩)

theorem quotation?_eq_none (h : quotation? rules c = none) :
    c ≠ '\'' ∧ ¬ (c = '"' ∨ (c = '\x60' ∧ rules.backtickNames = true)) ∧
      ¬ (c = '[' ∧ rules.bracketNames = true) := by
  unfold quotation? at h
  split_ifs at h with hsingle hdouble hbracket
  exact ⟨hsingle, hdouble, hbracket⟩

theorem dollarOpening?_eq_some {tag : List Char}
    (h : dollarOpening? rules before c rest = some tag) :
    c = '$' ∧ rules.dollarStrings = true ∧ endsWordBeforeDollar before = false ∧
      dollarTag? rest = some tag := by
  unfold dollarOpening? at h
  split_ifs at h with hdollar
  simpa [h] using hdollar

/-! ## The cases are all -/

theorem segmentCase_quotedOr {quote : Char} {escape : Option Char}
    (h : quotation? rules c = some (quote, escape)) :
    SegmentCase rules before c rest (quotedOr c rest (closingQuote? quote escape rest)).1
      (quotedOr c rest (closingQuote? quote escape rest)).2 := by
  cases hclose : closingQuote? quote escape rest with
  | none => exact .openQuote h hclose
  | some position => exact .quoted h hclose

theorem segmentCase_segmentAt :
    SegmentCase rules before c rest (segmentAt rules before c rest).1
      (segmentAt rules before c rest).2 := by
  unfold segmentAt
  split_ifs with hline hblock hsingle hescapes hdouble hbracket hdollar
  · exact .line hline.1 hline.2
  · cases hclose : blockEnd? rules.nestedComments 0 rest.tail with
    | none => exact .openBlock hblock.1 hblock.2 hclose
    | some position => exact .block hblock.1 hblock.2 hclose
  · exact segmentCase_quotedOr (by simp [quotation?, hsingle, hescapes])
  · exact segmentCase_quotedOr (by simp [quotation?, hsingle, hescapes])
  · exact segmentCase_quotedOr (by simp [quotation?, hsingle, hdouble])
  · exact segmentCase_quotedOr (by simp [quotation?, hbracket])
  · -- a dollar opens a string only behind no word and before a tag
    have hopening : dollarOpening? rules before c rest = dollarTag? rest := if_pos hdollar
    have hquote : quotation? rules c = none := by simp [quotation?, hdollar.1]
    cases htag : dollarTag? rest with
    | none => exact .code hline hblock hquote (hopening.trans htag)
    | some tag =>
        dsimp only
        cases hclose : afterDelimiter? ('$' :: tag ++ ['$']) (rest.drop (tag.length + 1)) with
        | none => exact .openDollar (hopening.trans htag) hclose
        | some position => exact .dollar (hopening.trans htag) hclose
  · refine .code hline hblock ?_ (if_neg hdollar)
    simp [quotation?, hsingle, hdouble, hbracket]

namespace SegmentCase

theorem segmentAt_eq (h : SegmentCase rules before c rest kind more) :
    segmentAt rules before c rest = (kind, more) := by
  cases h with
  | line hc hhead => simp [segmentAt, hc, hhead]
  | block hc hhead hclose => simp [segmentAt, hc, hhead, hclose]
  | openBlock hc hhead hclose => simp [segmentAt, hc, hhead, hclose]
  | quoted hopen hclose =>
      -- the quotes of the three kinds: with escapes, doubled, brackets
      rcases quotation?_eq_some hopen with ⟨rfl, rfl, rfl⟩ | ⟨rfl | ⟨rfl, hrule⟩, rfl, rfl⟩ |
        ⟨rfl, hrule, rfl, rfl⟩
      · simp only [segmentAt]
        simp [hclose, quotedOr]
      all_goals simp [segmentAt, quotedOr, *]
  | openQuote hopen hclose =>
      rcases quotation?_eq_some hopen with ⟨rfl, rfl, rfl⟩ | ⟨rfl | ⟨rfl, hrule⟩, rfl, rfl⟩ |
        ⟨rfl, hrule, rfl, rfl⟩
      all_goals simp [segmentAt, quotedOr, *]
  | dollar hopen hclose =>
      obtain ⟨rfl, hrule, hbefore, htag⟩ := dollarOpening?_eq_some hopen
      simp only [List.cons_append] at hclose
      simp [segmentAt, hrule, hbefore, htag, hclose]
  | openDollar hopen hclose =>
      obtain ⟨rfl, hrule, hbefore, htag⟩ := dollarOpening?_eq_some hopen
      simp only [List.cons_append] at hclose
      simp [segmentAt, hrule, hbefore, htag, hclose]
  | code hline hblock hquote hdollar =>
      obtain ⟨hsingle, hdouble, hbracket⟩ := quotation?_eq_none hquote
      unfold segmentAt
      rw [if_neg hline, if_neg hblock, if_neg hsingle, if_neg hdouble, if_neg hbracket]
      split_ifs with hopens
      · rw [dollarOpening?, if_pos hopens] at hdollar
        rw [hdollar]
      · rfl

end SegmentCase

/-- The segment at a character is of one of the cases. -/
theorem segmentAt_eq_iff :
    segmentAt rules before c rest = (kind, more) ↔ SegmentCase rules before c rest kind more := by
  constructor
  · intro h
    have hcase : SegmentCase rules before c rest _ _ := segmentCase_segmentAt
    rwa [h] at hcase
  · intro h
    exact h.segmentAt_eq

/-! ## Closed segments -/

/-- No segment takes more characters than there are. -/
theorem SegmentCase.le_length (h : SegmentCase rules before c rest kind more) :
    more ≤ rest.length := by
  cases h with
  | line => exact (List.takeWhile_sublist _).length_le
  | block hc hhead hclose =>
      have hle := blockEnd?_le_length hclose
      rw [List.length_tail] at hle
      obtain ⟨tail, rfl⟩ := List.head?_eq_some_iff.mp hhead
      simpa using hle
  | quoted hopen hclose => exact closingQuote?_lt_length hclose
  | dollar hopen hclose =>
      have hle := afterDelimiter?_le_length hclose
      rw [List.length_drop] at hle
      obtain ⟨-, -, -, htag⟩ := dollarOpening?_eq_some hopen
      obtain ⟨⟨tail, rfl⟩, -⟩ := dollarTag?_eq_some_iff.mp htag
      simp only [List.length_append, List.length_cons] at hle ⊢
      omega
  | openBlock | openQuote | openDollar => exact Nat.le_refl _
  | code => exact Nat.zero_le _

theorem SegmentCase.length_take (h : SegmentCase rules before c rest kind more) :
    (rest.take more).length = more :=
  List.length_take_of_le h.le_length

/-- What holds of the empty text, and of a text if it holds of what follows its first segment, holds
of every text. -/
@[elab_as_elim]
theorem segments_induction (rules : QuoteRules) {motive : Option Char → List Char → Prop}
    (nil : ∀ before, motive before [])
    (segment : ∀ before c rest kind more, SegmentCase rules before c rest kind more →
      motive (lastCharacter (some c) (rest.take more)) (rest.drop more) → motive before (c :: rest))
    (before : Option Char) (text : List Char) : motive before text := by
  induction hlength : text.length using Nat.strongRecOn generalizing before text with
  | _ length ih =>
      cases text with
      | nil => exact nil before
      | cons c rest =>
          apply segment before c rest _ _ segmentCase_segmentAt
          refine ih _ ?_ _ _ rfl
          rw [← hlength, List.length_drop, List.length_cons]
          omega

end

end TableLineage.Sql
