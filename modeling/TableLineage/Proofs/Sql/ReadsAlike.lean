import TableLineage.Proofs.Sql.NameTokens

/-!
# Token lists that are read alike

The reader of names takes one part after the other.  Two lists give the same name if every part does
and the reader goes on alike behind it.  `ReadsAlike` collects what a relation has to keep for that,
at the start of a part and behind one, and `ReadsAlike.canonical?_namedFactor` says what follows:
the same table, or none.

The first such relation is that of lists that differ in the quotes of words only
(`readsAlike_sameButQuotes`).  Quotes do not count for the name, but they do for the token at its
start, since an unquoted `SELECT` starts no name.  That token stays the same if the name is read
from before a token that stays (`canonical?_tableFactor_of_sameButQuotes`).
-/

namespace TableLineage.Sql

/-- The name by which the table of a factor is matched. -/
def Factor.canonical? (factor : Factor) : Option String :=
  factor.reference?.map (·.canonical)

/-- Both lists start with a parenthesis, or none does. -/
def OpensAlike (tokens others : List Token) : Prop :=
  tokens.head? = some .openParen ↔ others.head? = some .openParen

/-- Two relations that the reader of names keeps, one at the start of a part and one behind it. -/
structure ReadsAlike (start behind : List Token → List Token → Prop) : Prop where
  value_eq {tokens others : List Token} : start tokens others →
    (namePart tokens).1.map (·.value) = (namePart others).1.map (·.value)
  opens_of_start {tokens others : List Token} : start tokens others →
    OpensAlike (namePart tokens).2 (namePart others).2
  behind_part {tokens others : List Token} : start tokens others →
    (namePart tokens).1.isSome → behind (namePart tokens).2 (namePart others).2
  opens_of_behind {tokens others : List Token} : behind tokens others → OpensAlike tokens others
  periods {tokens others : List Token} : behind tokens others →
    (∃ after after', tokens = .period :: after ∧ others = .period :: after' ∧
      start (afterPeriods after) (afterPeriods after')) ∨
    (tokens.head? ≠ some .period ∧ others.head? ≠ some .period)

theorem objectName?_eq (tokens : List Token) :
    objectName? tokens = (namePart tokens).1.map fun part =>
      (⟨part :: (furtherParts (namePart tokens).2).1⟩, (furtherParts (namePart tokens).2).2) :=
  rfl

/-- A factor refers to the name at its start, unless a parenthesis behind it makes it a function. -/
theorem reference?_namedFactor_eq (tokens : List Token) :
    (namedFactor tokens).reference? =
      if (tokens.head?.map startsName).getD false then
        (objectName? tokens).bind fun found =>
          if found.2.head? = some .openParen then none else some found.1
      else none := by
  rw [namedFactor]
  split
  case isFalse => rfl
  case isTrue =>
    cases objectName? tokens with
    | none => rfl
    | some found =>
        obtain ⟨name, rest⟩ := found
        cases rest with
        | nil => rfl
        | cons token rest => cases token <;> rfl

theorem canonical?_namedFactor_eq (tokens : List Token) :
    (namedFactor tokens).canonical? =
      if (tokens.head?.map startsName).getD false then
        (objectName? tokens).bind fun found =>
          if found.2.head? = some .openParen then none else some found.1.canonical
      else none := by
  rw [Factor.canonical?, reference?_namedFactor_eq]
  split
  case isFalse => rfl
  case isTrue =>
    rw [Option.map_bind]
    congr 1
    funext found
    rw [Function.comp_apply, apply_ite (Option.map TableReference.canonical), Option.map_none,
      Option.map_some]

theorem reference?_namedFactor_eq_some_iff {tokens : List Token} {reference : TableReference} :
    (namedFactor tokens).reference? = some reference ↔
      (tokens.head?.map startsName).getD false = true ∧
        ∃ rest, objectName? tokens = some (reference, rest) ∧ rest.head? ≠ some .openParen := by
  rw [reference?_namedFactor_eq, Option.ite_none_right_eq_some, Option.bind_eq_some_iff]
  refine and_congr_right fun _ => ?_
  constructor
  · rintro ⟨⟨name, rest⟩, hread, hname⟩
    obtain ⟨hrest, hname⟩ := Option.ite_none_left_eq_some.mp hname
    obtain rfl := Option.some.inj hname
    exact ⟨rest, hread, hrest⟩
  · rintro ⟨rest, hread, hrest⟩
    exact ⟨_, hread, if_neg hrest⟩

namespace ReadsAlike

variable {start behind : List Token → List Token → Prop} {tokens others : List Token}

/-- Behind a part the reader finds the same further parts. -/
theorem furtherParts (h : ReadsAlike start behind) (hbehind : behind tokens others) :
    (furtherParts tokens).1.map (·.value) = (furtherParts others).1.map (·.value) ∧
      OpensAlike (furtherParts tokens).2 (furtherParts others).2 := by
  induction tokens using furtherParts_induction generalizing others with
  | part after part hpart ih =>
      obtain ⟨_, after', heq, rfl, hstart⟩ | ⟨hperiod, -⟩ := h.periods hbehind
      · obtain rfl := (List.cons.inj heq).2
        -- both read a part of the same value and go on behind it
        have hvalue := h.value_eq hstart
        rw [hpart] at hvalue
        obtain ⟨part', hpart', hsame⟩ := Option.map_eq_some_iff.mp hvalue.symm
        obtain ⟨hparts, hopens⟩ := ih (h.behind_part hstart (Option.isSome_of_eq_some hpart))
        rw [furtherParts_period (Prod.ext hpart rfl), furtherParts_period (Prod.ext hpart' rfl)]
        exact ⟨congrArg₂ List.cons hsame.symm hparts, hopens⟩
      · exact absurd rfl hperiod
  | noPart after hnone =>
      obtain ⟨_, after', heq, rfl, hstart⟩ | ⟨hperiod, -⟩ := h.periods hbehind
      · obtain rfl := (List.cons.inj heq).2
        have hvalue := h.value_eq hstart
        -- neither reads a part, so both stop behind the periods
        rw [hnone, Option.map_none, eq_comm, Option.map_eq_none_iff] at hvalue
        rw [furtherParts_period_none hnone, furtherParts_period_none hvalue]
        exact ⟨rfl, h.opens_of_start hstart⟩
      · exact absurd rfl hperiod
  | stop tokens hperiod =>
      obtain ⟨after, -, rfl, -, -⟩ | ⟨-, hne⟩ := h.periods hbehind
      · exact absurd rfl hperiod
      · rw [furtherParts_of_ne hperiod, furtherParts_of_ne hne]
        exact ⟨rfl, h.opens_of_behind hbehind⟩

/-- At the start of a name the reader finds the same name, and both lists go on alike. -/
theorem objectName? (h : ReadsAlike start behind) (hstart : start tokens others) :
    Option.Rel (fun found other => found.1.canonical = other.1.canonical ∧
      OpensAlike found.2 other.2) (objectName? tokens) (objectName? others) := by
  have hvalue := h.value_eq hstart
  rw [objectName?_eq, objectName?_eq]
  cases hpart : (namePart tokens).1 with
  | none =>
      rw [hpart, Option.map_none, eq_comm, Option.map_eq_none_iff] at hvalue
      rw [hvalue]
      exact .none
  | some part =>
      have hbehind := h.behind_part hstart (by rw [hpart]; rfl)
      rw [hpart] at hvalue
      obtain ⟨part', hpart', hsame⟩ := Option.map_eq_some_iff.mp hvalue.symm
      obtain ⟨hparts, hopens⟩ := h.furtherParts hbehind
      rw [hpart']
      refine .some ⟨?_, hopens⟩
      simp only [TableReference.canonical, List.map_cons, hparts, hsame]

/-- Both lists refer to the same table, if a name may start at both or at none of them. -/
theorem canonical?_namedFactor (h : ReadsAlike start behind) (hstart : start tokens others)
    (hhead : tokens.head?.map startsName = others.head?.map startsName) :
    (namedFactor tokens).canonical? = (namedFactor others).canonical? := by
  have hread := h.objectName? hstart
  rw [canonical?_namedFactor_eq, canonical?_namedFactor_eq, hhead]
  congr 1
  cases hname : Sql.objectName? tokens <;> cases hother : Sql.objectName? others <;>
    rw [hname, hother] at hread
  · cases hread
  · cases hread
  · obtain ⟨hcanonical, hopens⟩ := Option.rel_some_some.mp hread
    simp only [Option.bind_some, hcanonical, propext hopens]

end ReadsAlike

/-! ## Where the name of a factor starts -/

/-- The tokens from the name of a factor on, behind `LATERAL` and opening parentheses. -/
def factorStart : List Token → List Token
  | token :: rest =>
    (if token.isKeyword .LATERAL then rest else token :: rest).dropWhile (· == .openParen)
  | [] => []

theorem innerFactor_eq (tokens : List Token) :
    innerFactor tokens = namedFactor (tokens.dropWhile (· == .openParen)) := by
  induction tokens with
  | nil => rfl
  | cons token rest ih =>
      cases token with
      | openParen => exact ih
      | _ => rfl

theorem tableFactor_eq (tokens : List Token) :
    tableFactor tokens = namedFactor (factorStart tokens) := by
  cases tokens with
  | nil => rfl
  | cons token rest => exact innerFactor_eq _

theorem dropWhile_append_cons {α : Type} (p : α → Bool) {a : α} (h : p a = false)
    (front rest : List α) :
    (front ++ a :: rest).dropWhile p = front.dropWhile p ++ a :: rest := by
  rw [List.dropWhile_append, List.dropWhile_cons_of_neg (by simp [h])]
  split
  case isTrue hempty => rw [List.isEmpty_iff.mp hempty, List.nil_append]
  case isFalse => rfl

/-- A name that starts at a token or before it starts there whatever stands behind the token. -/
theorem factorStart_append {token : Token} (hparen : token ≠ .openParen)
    (hlateral : token.isKeyword .LATERAL = false) (front rest : List Token) :
    factorStart (front ++ token :: rest) = factorStart front ++ token :: rest := by
  have hstop : (token == .openParen) = false := by simpa using hparen
  cases front with
  | nil =>
      rw [List.nil_append, factorStart, hlateral, if_neg Bool.false_ne_true]
      exact dropWhile_append_cons (· == .openParen) hstop [] rest
  | cons first front =>
      rw [List.cons_append, factorStart, factorStart]
      split
      case isTrue => exact dropWhile_append_cons (· == .openParen) hstop front rest
      case isFalse => exact dropWhile_append_cons (· == .openParen) hstop (first :: front) rest

theorem afterPeriods_append {token : Token} (h : token ≠ .period) (front rest : List Token) :
    afterPeriods (front ++ token :: rest) = afterPeriods front ++ token :: rest := by
  rw [afterPeriods, afterPeriods, dropWhile_append_cons _ (by simpa using h)]

/-! ## Lists that differ in quotes only -/

namespace Token

/-- The token without quotes. -/
def bare : Token → Token
  | word value _ => word value none
  | token => token

/-- Punctuation is what it was. -/
theorem bare_beq {mark : Token} (hmark : mark.isWord = false) (token : Token) :
    (token.bare == mark) = (token == mark) := by
  cases token with
  | word value quote => cases mark <;> first | rfl | cases hmark
  | _ => rfl

theorem head?_bare {mark : Token} (hmark : mark.isWord = false) (tokens : List Token) :
    (tokens.map bare).head? = some mark ↔ tokens.head? = some mark := by
  cases tokens with
  | nil => rfl
  | cons token rest =>
      have hsame : token.bare = mark ↔ token = mark := by
        rw [← beq_iff_eq, bare_beq hmark, beq_iff_eq]
      rw [List.map_cons, List.head?_cons, List.head?_cons, Option.some.injEq, Option.some.injEq]
      exact hsame

end Token

theorem bracketWord?_bare (token : Token) : bracketWord? token.bare = bracketWord? token := by
  cases token <;> rfl

/-- Quotes do not count for the text of a part. -/
theorem namePart_bare (tokens : List Token) :
    (namePart (tokens.map Token.bare)).1.map (·.value) = (namePart tokens).1.map (·.value) ∧
      (namePart (tokens.map Token.bare)).2 = (namePart tokens).2.map Token.bare := by
  cases tokens with
  | nil => exact ⟨rfl, rfl⟩
  | cons token rest =>
      cases token with
      | openBracket =>
          -- the bracket ends at the same token, and quotes do not show in its words
          have hinside : (rest.map Token.bare).takeWhile (· != .closeBracket) =
              (rest.takeWhile (· != .closeBracket)).map Token.bare := by
            rw [List.takeWhile_map]
            simp only [Function.comp_def, bne, @Token.bare_beq .closeBracket rfl]
          have hwords : ((rest.takeWhile (· != .closeBracket)).map Token.bare).filterMap
                bracketWord? = (rest.takeWhile (· != .closeBracket)).filterMap bracketWord? := by
            rw [List.filterMap_map]
            simp only [Function.comp_def, bracketWord?_bare]
          rw [show (Token.openBracket :: rest).map Token.bare =
            .openBracket :: rest.map Token.bare from rfl, namePart, namePart]
          simp only [hinside, hwords, List.length_map, List.map_drop, and_self]
      | _ => exact ⟨rfl, rfl⟩

theorem afterPeriods_bare (tokens : List Token) :
    afterPeriods (tokens.map Token.bare) = (afterPeriods tokens).map Token.bare := by
  rw [afterPeriods, afterPeriods, List.dropWhile_map]
  simp only [Function.comp_def, @Token.bare_beq .period rfl]

/-- Both lists hold the same tokens, but for the quotes of words. -/
def SameButQuotes (tokens others : List Token) : Prop :=
  tokens.map Token.bare = others.map Token.bare

theorem SameButQuotes.append {first second others more : List Token}
    (h : SameButQuotes first others) (hmore : SameButQuotes second more) :
    SameButQuotes (first ++ second) (others ++ more) := by
  rw [SameButQuotes, List.map_append, List.map_append, h, hmore]

theorem SameButQuotes.opensAlike {tokens others : List Token} (h : SameButQuotes tokens others) :
    OpensAlike tokens others := by
  rw [OpensAlike, ← Token.head?_bare rfl tokens, h, Token.head?_bare rfl]

theorem SameButQuotes.namePart {tokens others : List Token} (h : SameButQuotes tokens others) :
    SameButQuotes (namePart tokens).2 (namePart others).2 := by
  rw [SameButQuotes, ← (namePart_bare tokens).2, h, (namePart_bare others).2]

/-- The reader goes through both lists alike. -/
theorem readsAlike_sameButQuotes : ReadsAlike SameButQuotes SameButQuotes where
  value_eq {tokens others} h := by
    rw [← (namePart_bare tokens).1, h, (namePart_bare others).1]
  opens_of_start h := h.namePart.opensAlike
  behind_part h _ := h.namePart
  opens_of_behind h := h.opensAlike
  periods {tokens others} h := by
    have hheads : tokens.head? = some .period ↔ others.head? = some .period := by
      rw [← Token.head?_bare rfl tokens, h, Token.head?_bare rfl]
    by_cases hperiod : tokens.head? = some .period
    · obtain ⟨after, rfl⟩ := List.head?_eq_some_iff.mp hperiod
      obtain ⟨after', rfl⟩ := List.head?_eq_some_iff.mp (hheads.mp hperiod)
      refine .inl ⟨after, after', rfl, rfl, ?_⟩
      rw [SameButQuotes, ← afterPeriods_bare, ← afterPeriods_bare, (List.cons.inj h).2]
    · exact .inr ⟨hperiod, mt hheads.mpr hperiod⟩

/-- Where a name is read from before a token that stays, quotes behind that token do not matter. -/
theorem canonical?_tableFactor_of_sameButQuotes {token : Token} (hparen : token ≠ .openParen)
    (hlateral : token.isKeyword .LATERAL = false) (front : List Token) {rest others : List Token}
    (h : SameButQuotes rest others) :
    (tableFactor (front ++ token :: rest)).canonical? =
      (tableFactor (front ++ token :: others)).canonical? := by
  rw [tableFactor_eq, tableFactor_eq, factorStart_append hparen hlateral,
    factorStart_append hparen hlateral]
  apply readsAlike_sameButQuotes.canonical?_namedFactor
  · exact .append rfl (congrArg (token.bare :: ·) h)
  · cases factorStart front <;> rfl

end TableLineage.Sql
