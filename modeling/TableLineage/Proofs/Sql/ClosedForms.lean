import Mathlib.Data.List.TakeWhile
import TableLineage.Proofs.Sql.Closing
import TableLineage.Proofs.Text.Search
import TableLineage.Sql.Comment

/-!
# Closed quotes, comments and dollar strings

Each form of text that is closed by a delimiter is described here by a grammar, and its reader is
proved to find the end of what the grammar derives.

* `QuotedBody` is what stands between quotes: plain characters, doubled quotes and escapes
  (`closingQuote?_eq_some_iff`);
* `BlockBody` is a block comment after its opening mark: characters and, if comments nest, whole
  comments, up to the closing mark (`blockEnd?_eq_some_iff`);
* a tag is letters, digits and underscores up to a dollar sign (`dollarTag?_eq_some_iff`), and a
  dollar string ends with the first occurrence of its tag (`Text.findPattern?_eq_some_iff`).

A form is derived from its own characters, so what follows it does not matter, but for a quote that
would double the closing one.  What is shown of a whole search goes by the ways in which a text goes
on, by `quotes_induction` and `marks_induction`.
-/

namespace TableLineage.Sql

/-! ## Quotes -/

/-- What may stand between two quotes. -/
inductive QuotedBody (quote : Char) (escape : Option Char) : List Char → Prop
  | nil : QuotedBody quote escape []
  | plain {c : Char} {body : List Char} (hquote : c ≠ quote) (hescape : escape ≠ some c)
      (h : QuotedBody quote escape body) : QuotedBody quote escape (c :: body)
  | doubled {body : List Char} (hescape : escape ≠ some quote)
      (h : QuotedBody quote escape body) : QuotedBody quote escape (quote :: quote :: body)
  | escaped {e c : Char} {body : List Char} (hescape : escape = some e)
      (h : QuotedBody quote escape body) : QuotedBody quote escape (e :: c :: body)

section Steps

variable {α : Type} [DecidableEq α] {quote : α} {escape : Option α}

theorem closingQuote?_plain {c : α} (hquote : c ≠ quote) (hescape : escape ≠ some c)
    (rest : List α) :
    closingQuote? quote escape (c :: rest) = (closingQuote? quote escape rest).map (· + 1) := by
  cases rest with
  | nil => simp [closingQuote?_singleton, closingQuote?_nil, hquote, hescape]
  | cons d rest => rw [closingQuote?_cons_cons, if_neg hescape, if_neg hquote]

theorem closingQuote?_doubled (hescape : escape ≠ some quote) (rest : List α) :
    closingQuote? quote escape (quote :: quote :: rest) =
      (closingQuote? quote escape rest).map (· + 2) := by
  rw [closingQuote?_cons_cons, if_neg hescape, if_pos rfl, if_pos rfl]

theorem closingQuote?_escaped {e : α} (hescape : escape = some e) (c : α)
    (rest : List α) :
    closingQuote? quote escape (e :: c :: rest) =
      (closingQuote? quote escape rest).map (· + 2) := by
  rw [closingQuote?_cons_cons, if_pos hescape]

theorem closingQuote?_cut {e : α} (hescape : escape = some e) :
    closingQuote? quote escape [e] = none := by
  rw [closingQuote?_singleton, if_pos hescape]

/-- A search for a closing quote goes through a text by escapes, doubled quotes and plain
characters, and ends at a quote that is not doubled. -/
@[elab_as_elim]
theorem quotes_induction (quote : α) (escape : Option α) {motive : List α → Prop}
    (nil : motive []) (cut : ∀ e, escape = some e → motive [e])
    (escaped : ∀ e c rest, escape = some e → motive rest → motive (e :: c :: rest))
    (doubled : ∀ rest, escape ≠ some quote → motive rest → motive (quote :: quote :: rest))
    (close : ∀ rest, escape ≠ some quote → rest.head? ≠ some quote → motive (quote :: rest))
    (plain : ∀ c rest, c ≠ quote → escape ≠ some c → motive rest → motive (c :: rest))
    (text : List α) : motive text := by
  induction hlength : text.length using Nat.strongRecOn generalizing text with
  | _ length ih =>
      cases text with
      | nil => exact nil
      | cons c rest =>
          rw [List.length_cons] at hlength
          by_cases hescape : escape = some c
          · -- an escape character takes the next one along, if there is one
            cases rest with
            | nil => exact cut c hescape
            | cons d rest =>
                rw [List.length_cons] at hlength
                exact escaped c d rest hescape (ih rest.length (by omega) rest rfl)
          · by_cases hquote : c = quote
            · subst hquote
              -- a quote before a quote stays inside, else it closes
              by_cases hdoubled : rest.head? = some c
              · obtain ⟨rest, rfl⟩ := List.head?_eq_some_iff.mp hdoubled
                rw [List.length_cons] at hlength
                exact doubled rest hescape (ih rest.length (by omega) rest rfl)
              · exact close rest hescape hdoubled
            · exact plain c rest hquote hescape (ih rest.length (by omega) rest rfl)

end Steps

section Quotes

variable {quote : Char} {escape : Option Char} {body text : List Char} {position : Nat}

theorem QuotedBody.append {other : List Char} (h : QuotedBody quote escape body)
    (hother : QuotedBody quote escape other) : QuotedBody quote escape (body ++ other) := by
  induction h with
  | nil => exact hother
  | plain hquote hescape _ ih => exact .plain hquote hescape ih
  | doubled hescape _ ih => exact .doubled hescape ih
  | escaped hescape _ ih => exact .escaped hescape ih

/-- Behind what may stand between quotes, the closing quote is the first that is not doubled. -/
theorem closingQuote?_of_quotedBody (h : QuotedBody quote escape body)
    (hescape : escape ≠ some quote) {rest : List Char} (hrest : rest.head? ≠ some quote) :
    closingQuote? quote escape (body ++ quote :: rest) = some body.length := by
  induction h with
  | nil => exact closingQuote?_eq_zero_iff.mpr ⟨hescape, rfl, hrest⟩
  | plain hquote hplain _ ih =>
      rw [List.cons_append, closingQuote?_plain hquote hplain, ih]
      rfl
  | doubled hdoubled _ ih =>
      rw [List.cons_append, List.cons_append, closingQuote?_doubled hdoubled, ih]
      rfl
  | escaped hescaped _ ih =>
      rw [List.cons_append, List.cons_append, closingQuote?_escaped hescaped, ih]
      rfl

/-- What a reader skips to get to the closing quote may stand between quotes. -/
theorem quotedBody_of_closingQuote? (h : closingQuote? quote escape text = some position) :
    ∃ body rest, text = body ++ quote :: rest ∧ position = body.length ∧
      QuotedBody quote escape body ∧ escape ≠ some quote ∧ rest.head? ≠ some quote := by
  induction text using quotes_induction quote escape generalizing position with
  | nil => cases h
  | cut e hescape =>
      rw [closingQuote?_cut hescape] at h
      cases h
  | escaped e c rest hescape ih =>
      rw [closingQuote?_escaped hescape] at h
      obtain ⟨next, hnext, rfl⟩ := Option.map_eq_some_iff.mp h
      obtain ⟨body, tail, rfl, rfl, hbody, hends⟩ := ih hnext
      exact ⟨e :: c :: body, tail, rfl, rfl, .escaped hescape hbody, hends⟩
  | doubled rest hescape ih =>
      rw [closingQuote?_doubled hescape] at h
      obtain ⟨next, hnext, rfl⟩ := Option.map_eq_some_iff.mp h
      obtain ⟨body, tail, rfl, rfl, hbody, hends⟩ := ih hnext
      exact ⟨quote :: quote :: body, tail, rfl, rfl, .doubled hescape hbody, hends⟩
  | close rest hescape hrest =>
      have hzero := closingQuote?_eq_zero_iff.mpr ⟨hescape, rfl, hrest⟩
      obtain rfl := Option.some.inj (h.symm.trans hzero)
      exact ⟨[], rest, rfl, rfl, .nil, hescape, hrest⟩
  | plain c rest hquote hescape ih =>
      rw [closingQuote?_plain hquote hescape] at h
      obtain ⟨next, hnext, rfl⟩ := Option.map_eq_some_iff.mp h
      obtain ⟨body, tail, rfl, rfl, hbody, hends⟩ := ih hnext
      exact ⟨c :: body, tail, rfl, rfl, .plain hquote hescape hbody, hends⟩

theorem closingQuote?_eq_some_iff :
    closingQuote? quote escape text = some position ↔
      ∃ body rest, text = body ++ quote :: rest ∧ position = body.length ∧
        QuotedBody quote escape body ∧ escape ≠ some quote ∧ rest.head? ≠ some quote := by
  constructor
  · exact quotedBody_of_closingQuote?
  · rintro ⟨body, rest, rfl, rfl, hbody, hescape, hrest⟩
    exact closingQuote?_of_quotedBody hbody hescape hrest

end Quotes

/-! ## Block comments -/

/-- A block comment after its opening mark, with the closing one. -/
inductive BlockBody (nested : Bool) : List Char → Prop
  | close : BlockBody nested ['*', '/']
  | char {c : Char} {body : List Char} (hclose : ¬ ['*', '/'] <+: c :: body)
      (hopen : nested = true → ¬ ['/', '*'] <+: c :: body) (h : BlockBody nested body) :
      BlockBody nested (c :: body)
  | nest {inner body : List Char} (hnested : nested = true) (hinner : BlockBody nested inner)
      (h : BlockBody nested body) : BlockBody nested ('/' :: '*' :: (inner ++ body))

section Blocks

variable {nested : Bool} {depth : Nat} {body text : List Char} {position : Nat}

theorem blockEnd?_cons_cons (c d : Char) (rest : List Char) :
    blockEnd? nested depth (c :: d :: rest) =
      if c = '*' ∧ d = '/' then
        match depth with
        | 0 => some 2
        | inner + 1 => (blockEnd? nested inner rest).map (· + 2)
      else if nested ∧ c = '/' ∧ d = '*' then
        (blockEnd? nested (depth + 1) rest).map (· + 2)
      else
        (blockEnd? nested depth (d :: rest)).map (· + 1) := rfl

theorem blockEnd?_open (hnested : nested = true) (rest : List Char) :
    blockEnd? nested depth ('/' :: '*' :: rest) =
      (blockEnd? nested (depth + 1) rest).map (· + 2) := by
  subst hnested
  rfl

theorem mark_prefix_iff {a b c d : Char} {rest : List Char} :
    [a, b] <+: c :: d :: rest ↔ c = a ∧ d = b := by
  simp [eq_comm (a := a), eq_comm (a := b)]

theorem blockEnd?_char {c : Char} {rest : List Char} (hclose : ¬ ['*', '/'] <+: c :: rest)
    (hopen : nested = true → ¬ ['/', '*'] <+: c :: rest) :
    blockEnd? nested depth (c :: rest) = (blockEnd? nested depth rest).map (· + 1) := by
  cases rest with
  | nil => rfl
  | cons d rest =>
      rw [mark_prefix_iff] at hclose
      have hopening : ¬ (nested = true ∧ c = '/' ∧ d = '*') := by
        rintro ⟨hnested, hmark⟩
        exact hopen hnested (mark_prefix_iff.mpr hmark)
      rw [blockEnd?_cons_cons, if_neg hclose, if_neg hopening]

/-- The closing mark is part of the comment. -/
theorem BlockBody.two_le_length (h : BlockBody nested body) : 2 ≤ body.length := by
  induction h with
  | close => exact Nat.le_refl 2
  | char _ _ _ ih =>
      rw [List.length_cons]
      omega
  | nest _ _ _ _ ih =>
      simp only [List.length_cons, List.length_append]
      omega

/-- The mark that a comment starts with is seen in the comment alone. -/
theorem BlockBody.mark_prefix_append {a b c : Char} (h : BlockBody nested body)
    (rest : List Char) : [a, b] <+: c :: (body ++ rest) ↔ [a, b] <+: c :: body := by
  have hlength := h.two_le_length
  cases body with
  | nil => simp at hlength
  | cons d body => simp

/-- A comment ends with its closing mark.  If it stands within other comments, the search goes on
behind it for the end of the next one out. -/
theorem blockEnd?_append_of_blockBody (h : BlockBody nested body) :
    (∀ rest, blockEnd? nested 0 (body ++ rest) = some body.length) ∧
      ∀ depth rest, blockEnd? nested (depth + 1) (body ++ rest) =
        (blockEnd? nested depth rest).map (· + body.length) := by
  induction h with
  | close => exact ⟨fun rest => rfl, fun depth rest => rfl⟩
  | @char c body hclose hopen h ih =>
      -- the character is no mark, so it only lengthens the comment
      have hstep : ∀ depth rest, blockEnd? nested depth (c :: body ++ rest) =
          (blockEnd? nested depth (body ++ rest)).map (· + 1) := by
        intro depth rest
        rw [List.cons_append]
        apply blockEnd?_char
        · rwa [h.mark_prefix_append]
        · rwa [h.mark_prefix_append]
      constructor
      · intro rest
        rw [hstep, ih.1]
        rfl
      · intro depth rest
        rw [hstep, ih.2, Option.map_map]
        rfl
  | @nest inner body hnested _ _ ihInner ihBody =>
      -- the inner comment goes one level down and comes back up
      have hstep : ∀ depth rest, blockEnd? nested depth ('/' :: '*' :: (inner ++ body) ++ rest) =
          (blockEnd? nested depth (body ++ rest)).map (· + (inner.length + 2)) := by
        intro depth rest
        calc blockEnd? nested depth ('/' :: '*' :: (inner ++ body) ++ rest)
            = (blockEnd? nested (depth + 1) (inner ++ (body ++ rest))).map (· + 2) := by
              rw [List.cons_append, List.cons_append, blockEnd?_open hnested, List.append_assoc]
          _ = ((blockEnd? nested depth (body ++ rest)).map (· + inner.length)).map (· + 2) := by
              rw [ihInner.2]
          _ = (blockEnd? nested depth (body ++ rest)).map (· + (inner.length + 2)) := by
              rw [Option.map_map]
              rfl
      have hlength : ('/' :: '*' :: (inner ++ body)).length = body.length + (inner.length + 2) := by
        simp only [List.length_cons, List.length_append]
        omega
      constructor
      · intro rest
        rw [hstep, ihBody.1, hlength]
        rfl
      · intro depth rest
        rw [hstep, ihBody.2, Option.map_map, hlength]
        simp only [Function.comp_def, Nat.add_assoc]

theorem exists_of_mark_prefix {a b c : Char} {rest : List Char} (h : [a, b] <+: c :: rest) :
    c = a ∧ ∃ tail, rest = b :: tail := by
  obtain ⟨rfl, tail, rfl⟩ := List.cons_prefix_cons.mp h
  exact ⟨rfl, tail, rfl⟩

/-- A search for the end of a block comment goes through a text by marks and other characters. -/
@[elab_as_elim]
theorem marks_induction (nested : Bool) {motive : List Char → Prop} (nil : motive [])
    (close : ∀ rest, motive rest → motive ('*' :: '/' :: rest))
    (mark : ∀ rest, nested = true → motive rest → motive ('/' :: '*' :: rest))
    (char : ∀ c rest, ¬ ['*', '/'] <+: c :: rest →
      (nested = true → ¬ ['/', '*'] <+: c :: rest) → motive rest → motive (c :: rest))
    (text : List Char) : motive text := by
  induction hlength : text.length using Nat.strongRecOn generalizing text with
  | _ length ih =>
      cases text with
      | nil => exact nil
      | cons c rest =>
          rw [List.length_cons] at hlength
          -- a mark is two characters, so the text behind it is shorter by two
          by_cases hclose : ['*', '/'] <+: c :: rest
          · obtain ⟨rfl, rest, rfl⟩ := exists_of_mark_prefix hclose
            rw [List.length_cons] at hlength
            exact close rest (ih rest.length (by omega) rest rfl)
          · by_cases hopen : nested = true ∧ ['/', '*'] <+: c :: rest
            · obtain ⟨hnested, hmark⟩ := hopen
              obtain ⟨rfl, rest, rfl⟩ := exists_of_mark_prefix hmark
              rw [List.length_cons] at hlength
              exact mark rest hnested (ih rest.length (by omega) rest rfl)
            · apply char c rest hclose
              · intro hnested hmark
                exact hopen ⟨hnested, hmark⟩
              · exact ih rest.length (by omega) rest rfl

/-- What a reader skips to get out of the comments that are open is the end of one comment for each
of them. -/
theorem exists_blockBodies_of_blockEnd? (h : blockEnd? nested depth text = some position) :
    ∃ body bodies rest, text = body ++ (List.flatten bodies ++ rest) ∧
      position = body.length + (List.flatten bodies).length ∧ bodies.length = depth ∧
      BlockBody nested body ∧ ∀ other ∈ bodies, BlockBody nested other := by
  induction text using marks_induction nested generalizing depth position with
  | nil => cases h
  | close rest ih =>
      cases depth with
      | zero =>
          obtain rfl : 2 = position := Option.some.inj h
          exact ⟨['*', '/'], [], rest, rfl, rfl, rfl, .close, by simp⟩
      | succ depth =>
          obtain ⟨next, hnext, rfl⟩ := Option.map_eq_some_iff.mp h
          obtain ⟨body, bodies, tail, rfl, rfl, hcount, hbody, hbodies⟩ := ih hnext
          refine ⟨['*', '/'], body :: bodies, tail, by simp, by simp; omega, by simp [hcount],
            .close, ?_⟩
          simpa using ⟨hbody, hbodies⟩
  | mark rest hnested ih =>
      rw [blockEnd?_open hnested] at h
      obtain ⟨next, hnext, rfl⟩ := Option.map_eq_some_iff.mp h
      obtain ⟨inner, bodies, tail, rfl, rfl, hcount, hinner, hbodies⟩ := ih hnext
      -- the comment that opens here ends first, then the one around it
      cases bodies with
      | nil => simp at hcount
      | cons body bodies =>
          rw [List.forall_mem_cons] at hbodies
          refine ⟨'/' :: '*' :: (inner ++ body), bodies, tail, by simp, ?_, by simpa using hcount,
            .nest hnested hinner hbodies.1, hbodies.2⟩
          simp only [List.length_cons, List.length_append, List.flatten_cons]
          omega
  | char c rest hclose hplain ih =>
      rw [blockEnd?_char hclose hplain] at h
      obtain ⟨next, hnext, rfl⟩ := Option.map_eq_some_iff.mp h
      obtain ⟨body, bodies, tail, htext, rfl, hcount, hbody, hbodies⟩ := ih hnext
      rw [htext, hbody.mark_prefix_append] at hclose hplain
      refine ⟨c :: body, bodies, tail, by rw [htext, List.cons_append], ?_, hcount,
        .char hclose hplain hbody, hbodies⟩
      rw [List.length_cons]
      omega

theorem blockEnd?_eq_some_iff :
    blockEnd? nested 0 text = some position ↔
      ∃ body rest, text = body ++ rest ∧ position = body.length ∧ BlockBody nested body := by
  constructor
  · intro h
    obtain ⟨body, bodies, rest, htext, hposition, hcount, hbody, -⟩ :=
      exists_blockBodies_of_blockEnd? h
    obtain rfl := List.length_eq_zero_iff.mp hcount
    exact ⟨body, rest, htext, hposition, hbody⟩
  · rintro ⟨body, rest, rfl, rfl, hbody⟩
    exact (blockEnd?_append_of_blockBody hbody).1 rest

theorem blockEnd?_append {inside rest : List Char}
    (h : blockEnd? nested 0 (inside ++ rest) = some position) (hle : position ≤ inside.length)
    (other : List Char) : blockEnd? nested 0 (inside ++ other) = some position := by
  obtain ⟨body, tail, htext, rfl, hbody⟩ := blockEnd?_eq_some_iff.mp h
  obtain ⟨more, rfl⟩ : body <+: inside :=
    List.prefix_of_prefix_length_le ⟨tail, htext.symm⟩ (List.prefix_append inside rest) hle
  rw [List.append_assoc]
  exact blockEnd?_eq_some_iff.mpr ⟨body, more ++ other, rfl, rfl, hbody⟩

theorem blockEnd?_le_length (h : blockEnd? nested 0 text = some position) :
    position ≤ text.length := by
  obtain ⟨body, rest, rfl, rfl, -⟩ := blockEnd?_eq_some_iff.mp h
  rw [List.length_append]
  exact Nat.le_add_right _ _

end Blocks

/-! ## Dollar strings -/

section Dollars

variable {text : List Char}

/-- Whether a character may stand in the tag of a dollar string. -/
def isTagPart (c : Char) : Bool :=
  c.isAlphanum || c == '_'

/-- Whether characters are a tag: letters, digits and underscores, and no digit first. -/
def IsTag (tag : List Char) : Prop :=
  (∀ c ∈ tag, isTagPart c = true) ∧ ∀ c, tag.head? = some c → c.isDigit = false

theorem takeWhile_isTagPart {tag : List Char} (h : ∀ c ∈ tag, isTagPart c = true)
    (tail : List Char) : (tag ++ '$' :: tail).takeWhile isTagPart = tag := by
  rw [List.takeWhile_append_of_pos h, List.takeWhile_cons_of_neg (by decide), List.append_nil]

/-- A tag is followed by a dollar sign. -/
theorem dollarTag?_eq_some_iff {tag : List Char} :
    dollarTag? text = some tag ↔ (∃ tail, text = tag ++ '$' :: tail) ∧ IsTag tag := by
  show (if (text.head?.map Char.isDigit).getD false then none
    else if text[(text.takeWhile isTagPart).length]? = some '$' then
      some (text.takeWhile isTagPart) else none) = some tag ↔ _
  constructor
  · intro h
    simp only [Option.ite_none_left_eq_some, Option.ite_none_right_eq_some,
      Option.some.injEq] at h
    obtain ⟨hdigit, hdollar, htag⟩ := h
    rw [htag] at hdollar
    -- the tag is the longest start of tag characters, and a dollar comes behind it
    obtain ⟨tail, rfl⟩ : tag <+: text := htag ▸ List.takeWhile_prefix isTagPart
    rw [List.getElem?_append_right (Nat.le_refl _), Nat.sub_self, ← List.head?_eq_getElem?]
      at hdollar
    obtain ⟨rest, rfl⟩ := List.head?_eq_some_iff.mp hdollar
    refine ⟨⟨rest, rfl⟩, ?_, ?_⟩
    · intro c hmem
      exact List.mem_takeWhile_imp (htag ▸ hmem)
    · intro c hhead
      obtain ⟨tag, rfl⟩ := List.head?_eq_some_iff.mp hhead
      simpa using hdigit
  · rintro ⟨⟨tail, rfl⟩, hparts, hfirst⟩
    -- the tag does not start with a digit, and the dollar is none
    have hdigit : ((tag ++ '$' :: tail).head?.map Char.isDigit).getD false = false := by
      cases tag with
      | nil => rfl
      | cons c tag => exact hfirst c rfl
    rw [takeWhile_isTagPart hparts, hdigit]
    simp

end Dollars

end TableLineage.Sql
