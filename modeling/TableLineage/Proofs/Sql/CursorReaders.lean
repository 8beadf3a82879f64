import TableLineage.Proofs.Sql.CteGrammar
import TableLineage.Proofs.Sql.CursorMoves
import TableLineage.Proofs.Sql.EnclosingGroup
import TableLineage.Proofs.Sql.NameTokens

/-!
# Readers that move a cursor

Definitions and table factors are read off the front of a token list.  Here the same readers are
written as programs that do nothing but move a cursor, and the two agree: what a cursor reads is
what is read off the tokens at which it stands.

* Each move has an equation for the tokens that it leaves: `rest_skipGroup` for a group,
  `rest_consumeKeyword` for a keyword, `rest_of_consumeKind` for a mark.
* From these follow, loop by loop, `definition?_rest` and `definitions_rest` for the definitions
  after `WITH`, and `namePart_rest`, `furtherParts_rest`, `objectName?_rest` and `tableFactor_rest`
  for names and table factors.
* So the names of a scope are what cursors read that start behind the `WITH`s of the statement
  (`definedNames_eq_flatMap_read`), and its references are what cursors read that start behind its
  openers and live commas (`extractReferences_eq_filterMap_read`).
-/

namespace TableLineage.Sql.Cursor

variable {cursor after : Cursor} {token : Token} {α : Type}

/-! ## What a move leaves -/

/-- What was read and the tokens that are left. -/
def left (reading : α × Cursor) : α × List Token :=
  (reading.1, reading.2.rest)

theorem rest_skip (cursor : Cursor) (count : Nat) :
    (cursor.skip count).rest = cursor.rest.drop count := by
  rw [rest, rest, List.drop_drop]
  rfl

theorem rest_skipGroup (cursor : Cursor) : cursor.skipGroup.rest = afterGroup cursor.rest :=
  rest_skip cursor _

theorem rest_of_peek?_eq_none (h : cursor.peek? = none) : cursor.rest = [] := by
  rwa [← List.head?_eq_none_iff, head?_rest]

/-- A condition on the next token holds and the cursor moves past it, or it fails and the cursor
stays. -/
theorem moveIf_cases (condition : Token → Bool) (cursor : Cursor) :
    (∃ next, condition next = true ∧ cursor.rest = next :: (cursor.skip 1).rest ∧
        cursor.moveIf (cursor.peek?.any condition) = (true, cursor.skip 1)) ∨
      (∀ next, cursor.rest.head? = some next → condition next = false) ∧
        cursor.moveIf (cursor.peek?.any condition) = (false, cursor) := by
  cases hpeek : cursor.peek? with
  | none => exact .inr ⟨by simp [head?_rest, hpeek], rfl⟩
  | some next =>
      rw [Option.any_some]
      cases hnext : condition next with
      | true => exact .inl ⟨next, hnext, rest_of_peek? hpeek, rfl⟩
      | false =>
          refine .inr ⟨fun head hhead => ?_, rfl⟩
          rw [head?_rest, hpeek] at hhead
          rwa [← Option.some.inj hhead]

theorem consumeKeyword_cases (keyword : Keyword) (cursor : Cursor) :
    (∃ next, next.isKeyword keyword = true ∧ cursor.rest = next :: (cursor.skip 1).rest ∧
        cursor.consumeKeyword keyword = (true, cursor.skip 1)) ∨
      (∀ next, cursor.rest.head? = some next → next.isKeyword keyword = false) ∧
        cursor.consumeKeyword keyword = (false, cursor) :=
  moveIf_cases _ cursor

theorem rest_consumeKeyword (cursor : Cursor) (keyword : Keyword) :
    (cursor.consumeKeyword keyword).2.rest = afterOptional keyword cursor.rest := by
  rcases consumeKeyword_cases keyword cursor with ⟨next, hnext, hrest, hmove⟩ | ⟨hnot, hmove⟩
  · rw [hmove, hrest, afterOptional, if_pos hnext]
  · rw [hmove]
    cases hrest : cursor.rest with
    | nil => rfl
    | cons next rest =>
        rw [hrest] at hnot
        rw [afterOptional, if_neg (by simp [hnot next rfl])]

/-- A token that is no word and no number is the only one of its kind. -/
def IsMark (token : Token) : Prop :=
  ∀ next, next.sameKind token = (next == token)

theorem isMark_comma : IsMark .comma := fun next => by cases next <;> rfl

theorem isMark_period : IsMark .period := fun next => by cases next <;> rfl

theorem isMark_openParen : IsMark .openParen := fun next => by cases next <;> rfl

theorem atKind_eq_true_iff (h : IsMark token) :
    cursor.atKind token = true ↔ cursor.rest.head? = some token := by
  rw [atKind, head?_rest]
  cases cursor.peek? with
  | none => simp
  | some next => simp [h next]

/-- What is consumed is no longer left. -/
theorem exists_rest_of_consumeKind (h : cursor.consumeKind token = (true, after)) :
    ∃ next, next.sameKind token = true ∧ cursor.rest = next :: after.rest := by
  rcases moveIf_cases (·.sameKind token) cursor with ⟨next, hnext, hrest, hmove⟩ | ⟨-, hmove⟩
  · obtain ⟨-, rfl⟩ := Prod.mk.inj (h.symm.trans hmove)
    exact ⟨next, hnext, hrest⟩
  · cases h.symm.trans hmove

theorem rest_of_consumeKind (hmark : IsMark token) (h : cursor.consumeKind token = (true, after)) :
    cursor.rest = token :: after.rest := by
  obtain ⟨next, hnext, hrest⟩ := exists_rest_of_consumeKind h
  rw [hmark next, beq_iff_eq] at hnext
  rwa [← hnext]

theorem length_rest_of_consumeKind (h : cursor.consumeKind token = (true, after)) :
    after.rest.length < cursor.rest.length := by
  obtain ⟨next, -, hrest⟩ := exists_rest_of_consumeKind h
  rw [hrest]
  exact Nat.lt_succ_self _

/-- If nothing is consumed, the cursor stays. -/
theorem stays_of_consumeKind (hmark : IsMark token)
    (h : cursor.consumeKind token = (false, after)) :
    after = cursor ∧ cursor.rest.head? ≠ some token := by
  rcases moveIf_cases (·.sameKind token) cursor with ⟨next, -, -, hmove⟩ | ⟨hnot, hmove⟩
  · cases h.symm.trans hmove
  · obtain ⟨-, rfl⟩ := Prod.mk.inj (h.symm.trans hmove)
    refine ⟨rfl, fun hhead => ?_⟩
    have hsame := hnot token hhead
    rw [hmark token, beq_self_eq_true] at hsame
    cases hsame

/-! ## Definitions -/

/-- Reads `name [(columns)] AS [NOT] [MATERIALIZED] (query)`; the name. -/
def readDefinition (cursor : Cursor) : Option String × Cursor :=
  match cursor.peek? with
  | some (.word name _) =>
    match cursor.advance.2.skipGroup.consumeKeyword .AS with
    | (true, body) =>
      let body := ((body.consumeKeyword .NOT).2.consumeKeyword .MATERIALIZED).2
      if body.atKind .openParen then (some name, body.skipGroup) else (none, body)
    | (false, stop) => (none, stop)
  | _ => (none, cursor)

/-- A definition that a cursor reads is the one at the start of its rest, and what it leaves is
left. -/
theorem definition?_rest (cursor : Cursor) :
    definition? cursor.rest =
      cursor.readDefinition.1.map fun name => (name, cursor.readDefinition.2.rest) := by
  rw [readDefinition, advance]
  cases hpeek : cursor.peek? with
  | none => simp [rest_of_peek?_eq_none hpeek, definition?]
  | some token =>
      rw [rest_of_peek? hpeek]
      cases token with
      | word name quote =>
          change definition? (.word name quote :: (cursor.skip 1).rest) = _
          rw [definition?, ← rest_skipGroup]
          -- the columns are passed, so it depends on the next keyword whether this is a definition
          rcases consumeKeyword_cases .AS (cursor.skip 1).skipGroup with
            ⟨as, has, hrest, hmove⟩ | ⟨hnot, hmove⟩
          · simp only [hmove, hrest, if_pos has, ← rest_consumeKeyword, ← rest_skipGroup,
              ← atKind_eq_true_iff isMark_openParen]
            split <;> rfl
          · rw [hmove]
            cases hrest : (cursor.skip 1).skipGroup.rest with
            | nil => rfl
            | cons as rest =>
                rw [hrest] at hnot
                simp [hnot as rfl]
      | _ => rfl

/-- Reads definitions that are separated by commas; their names. -/
def readDefinitions (cursor : Cursor) : List String :=
  match _hread : cursor.readDefinition with
  | (none, _) => []
  | (some name, stop) =>
    match _hcomma : stop.consumeKind .comma with
    | (true, next) => name :: next.readDefinitions
    | (false, _) => [name]
termination_by cursor.rest.length
decreasing_by
  have hdefinition : definition? cursor.rest = some (name, stop.rest) := by
    rw [definition?_rest, _hread]
    rfl
  exact (length_rest_of_consumeKind _hcomma).trans (length_lt_of_definition? hdefinition)

theorem definitions_rest (cursor : Cursor) : definitions cursor.rest = cursor.readDefinitions := by
  fun_induction readDefinitions cursor with
  | case1 cursor stop hread =>
      apply definitions_of_none
      rw [definition?_rest, hread]
      rfl
  | case2 cursor name stop hread next hcomma ih =>
      have hdefinition : definition? cursor.rest = some (name, stop.rest) := by
        rw [definition?_rest, hread]
        rfl
      rw [definitions_of_some hdefinition, rest_of_consumeKind isMark_comma hcomma,
        List.head?_cons, if_pos rfl, List.tail_cons, ih]
  | case3 cursor name stop hread next hcomma =>
      have hdefinition : definition? cursor.rest = some (name, stop.rest) := by
        rw [definition?_rest, hread]
        rfl
      rw [definitions_of_some hdefinition, if_neg (stays_of_consumeKind isMark_comma hcomma).2]

/-- The names of a scope are read by cursors that start behind the `WITH`s of the statement. -/
theorem definedNames_eq_flatMap_read (statement : List Token) :
    definedNames statement = statement.zipIdx.flatMap fun place =>
      if place.1.isKeyword .WITH then
        ((Cursor.mk statement (place.2 + 1)).consumeKeyword .RECURSIVE).2.readDefinitions
      else [] := by
  -- over the tokens not seen yet, whose places start where the cursor stands
  have hread : ∀ tokens start, statement.drop start = tokens →
      definedNames tokens = (tokens.zipIdx start).flatMap fun place =>
        if place.1.isKeyword .WITH then
          ((Cursor.mk statement (place.2 + 1)).consumeKeyword .RECURSIVE).2.readDefinitions
        else [] := by
    intro tokens
    induction tokens with
    | nil => intro start _; rfl
    | cons token tokens ih =>
        intro start hdrop
        have hnext : (Cursor.mk statement (start + 1)).rest = tokens := by
          rw [rest, ← List.drop_drop, hdrop]
          rfl
        rw [List.zipIdx_cons, List.flatMap_cons, ← ih (start + 1) hnext, definedNames]
        split
        · rw [← definitions_rest, rest_consumeKeyword, hnext]
        · rfl
  exact hread statement 0 rfl

/-! ## Names -/

theorem advance_cases (cursor : Cursor) :
    (cursor.rest = [] ∧ cursor.advance = (none, cursor)) ∨
      ∃ token, cursor.rest = token :: (cursor.skip 1).rest ∧
        cursor.advance = (some token, cursor.skip 1) := by
  rw [advance]
  cases hpeek : cursor.peek? with
  | none => exact .inl ⟨rest_of_peek?_eq_none hpeek, rfl⟩
  | some token => exact .inr ⟨token, rest_of_peek? hpeek, rfl⟩

/-- What is read is no longer left. -/
theorem rest_of_advance (h : cursor.advance = (some token, after)) :
    cursor.rest = token :: after.rest := by
  rcases advance_cases cursor with ⟨-, hmove⟩ | ⟨next, hrest, hmove⟩
  · cases h.symm.trans hmove
  · obtain ⟨htoken, rfl⟩ := Prod.mk.inj (h.symm.trans hmove)
    rwa [Option.some.inj htoken]

/-- Reads up to the closing bracket; the words and numbers on the way. -/
def readWords (cursor : Cursor) : List String × Cursor :=
  match _htoken : cursor.advance with
  | (none, stop) => ([], stop)
  | (some .closeBracket, stop) => ([], stop)
  | (some token, next) => ((bracketWord? token).toList ++ next.readWords.1, next.readWords.2)
termination_by cursor.rest.length
decreasing_by
  all_goals
    rw [rest_of_advance _htoken]
    exact Nat.lt_succ_self _

theorem left_readWords (cursor : Cursor) :
    left cursor.readWords =
      ((cursor.rest.takeWhile (· != .closeBracket)).filterMap bracketWord?,
        cursor.rest.drop ((cursor.rest.takeWhile (· != .closeBracket)).length + 1)) := by
  fun_induction readWords cursor with
  | case1 cursor stop htoken =>
      rcases advance_cases cursor with ⟨hrest, hmove⟩ | ⟨token, -, hmove⟩
      · obtain ⟨-, rfl⟩ := Prod.mk.inj (htoken.symm.trans hmove)
        simp [left, hrest]
      · cases htoken.symm.trans hmove
  | case2 cursor stop htoken => simp [left, rest_of_advance htoken]
  | case3 cursor token next hne htoken ih =>
      obtain ⟨hwords, hrest⟩ := Prod.mk.inj ih
      have hstay : (token != .closeBracket) = true := by simpa using hne
      have htake :=
        List.takeWhile_cons_of_pos (p := (· != Token.closeBracket)) (l := next.rest) hstay
      rw [left, hwords, hrest, rest_of_advance htoken, htake]
      -- the token stands in front of what is taken; it is a word or leaves nothing
      rw [List.filterMap_cons, List.length_cons, List.drop_succ_cons]
      cases bracketWord? token <;> rfl

/-- Reads one part of a name. -/
def readNamePart (cursor : Cursor) : Option NamePart × Cursor :=
  match cursor.peek? with
  | some (.word value quote) => (some ⟨value, quote.isSome⟩, cursor.advance.2)
  | some .openBracket =>
    let (words, stop) := cursor.advance.2.readWords
    (if words.isEmpty then none else some ⟨" ".intercalate words, true⟩, stop)
  | _ => (none, cursor)

theorem namePart_rest (cursor : Cursor) : namePart cursor.rest = left cursor.readNamePart := by
  rw [readNamePart, advance]
  cases hpeek : cursor.peek? with
  | none =>
      rw [left, rest_of_peek?_eq_none hpeek]
      rfl
  | some token =>
      have hrest : cursor.rest = token :: (cursor.skip 1).rest := rest_of_peek? hpeek
      cases token with
      | word value quote =>
          rw [hrest]
          rfl
      | openBracket =>
          obtain ⟨hwords, hstop⟩ := Prod.mk.inj (left_readWords (cursor.skip 1))
          simp only [hrest, namePart, left, hwords, hstop]
      | _ => simp only [hrest, namePart, left]

/-- Passes all periods that stand next. -/
def skipPeriods (cursor : Cursor) : Cursor :=
  match _hperiod : cursor.consumeKind .period with
  | (true, next) => next.skipPeriods
  | (false, stop) => stop
termination_by cursor.rest.length
decreasing_by exact length_rest_of_consumeKind _hperiod

theorem afterPeriods_rest (cursor : Cursor) :
    afterPeriods cursor.rest = cursor.skipPeriods.rest := by
  fun_induction skipPeriods cursor with
  | case1 cursor next hperiod ih =>
      rw [rest_of_consumeKind isMark_period hperiod, ← ih]
      rfl
  | case2 cursor stop hperiod =>
      obtain ⟨rfl, hne⟩ := stays_of_consumeKind isMark_period hperiod
      exact afterPeriods_replicate 0 hne

theorem length_rest_readNamePart_le (cursor : Cursor) :
    cursor.readNamePart.2.rest.length ≤ cursor.rest.length := by
  have hle := length_namePart_le cursor.rest
  rwa [namePart_rest] at hle

/-- Reads the parts of a name behind the first, each after one or more periods. -/
def readFurtherParts (cursor : Cursor) : List NamePart × Cursor :=
  match _hperiod : cursor.consumeKind .period with
  | (true, behind) =>
    match _hpart : behind.skipPeriods.readNamePart with
    | (some part, next) => (part :: next.readFurtherParts.1, next.readFurtherParts.2)
    | (none, stop) => ([], stop)
  | (false, stop) => ([], stop)
termination_by cursor.rest.length
decreasing_by
  all_goals
    have hnext := length_rest_readNamePart_le behind.skipPeriods
    rw [_hpart, ← afterPeriods_rest] at hnext
    have hperiods := length_afterPeriods_le behind.rest
    have hbehind := length_rest_of_consumeKind _hperiod
    exact Nat.lt_of_le_of_lt (Nat.le_trans hnext hperiods) hbehind

theorem furtherParts_rest (cursor : Cursor) :
    furtherParts cursor.rest = left cursor.readFurtherParts := by
  fun_induction readFurtherParts cursor with
  | case1 cursor behind hperiod part next hpart ih =>
      have hread : namePart (afterPeriods behind.rest) = (some part, next.rest) := by
        rw [afterPeriods_rest, namePart_rest, hpart]
        rfl
      rw [rest_of_consumeKind isMark_period hperiod, furtherParts_period hread, ih]
      rfl
  | case2 cursor behind hperiod stop hpart =>
      have hread : namePart (afterPeriods behind.rest) = (none, stop.rest) := by
        rw [afterPeriods_rest, namePart_rest, hpart]
        rfl
      rw [rest_of_consumeKind isMark_period hperiod, furtherParts_period_none (by rw [hread]),
        hread]
      rfl
  | case3 cursor stop hperiod =>
      obtain ⟨rfl, hne⟩ := stays_of_consumeKind isMark_period hperiod
      exact furtherParts_of_ne hne

/-- Reads a dotted name. -/
def readObjectName (cursor : Cursor) : Option TableReference × Cursor :=
  match cursor.readNamePart with
  | (some part, behind) =>
    let (parts, stop) := behind.readFurtherParts
    (some ⟨part :: parts⟩, stop)
  | (none, stop) => (none, stop)

theorem objectName?_rest (cursor : Cursor) :
    objectName? cursor.rest =
      cursor.readObjectName.1.map fun name => (name, cursor.readObjectName.2.rest) := by
  rw [objectName?, namePart_rest, readObjectName]
  rcases cursor.readNamePart with ⟨_ | part, behind⟩
  · rfl
  · simp only [left, Option.map_some, furtherParts_rest]

/-! ## Table factors -/

/-- Reads the name that stands first in a table factor, and passes the arguments of a function. -/
def readNamedFactor (cursor : Cursor) : Factor × Cursor :=
  if cursor.peek?.any startsName then
    match cursor.readObjectName with
    | (some name, stop) =>
      if stop.atKind .openParen then (.function name, stop.skipGroup) else (.table name, stop)
    | (none, stop) => (.unnamed, stop)
  else (.unnamed, cursor)

theorem namedFactor_rest (cursor : Cursor) :
    namedFactor cursor.rest = cursor.readNamedFactor.1 := by
  have hstarts : (cursor.rest.head?.map startsName).getD false = cursor.peek?.any startsName := by
    rw [head?_rest]
    cases cursor.peek? <;> rfl
  rw [namedFactor, readNamedFactor, hstarts]
  split
  · rw [objectName?_rest]
    rcases cursor.readObjectName with ⟨_ | name, stop⟩
    · rfl
    · simp only [Option.map_some, atKind_eq_true_iff isMark_openParen]
      cases hrest : stop.rest with
      | nil => rfl
      | cons token rest => cases token <;> rfl
  · rfl

/-- Reads a table factor, to the end of its group if it is one; what stands first in the factor. -/
def readFactor (cursor : Cursor) : Factor × Cursor :=
  match _hparen : (cursor.consumeKeyword .LATERAL).2.consumeKind .openParen with
  | (true, inside) =>
    -- a group is entered if a further group or a name stands first in it
    if inside.peek?.any fun token => token == .openParen || startsName token then
      (inside.readFactor.1, inside.readFactor.2.skipToClose)
    else (.unnamed, inside.skipToClose)
  | (false, start) => start.readNamedFactor
termination_by cursor.rest.length
decreasing_by
  all_goals
    have hinside := length_rest_of_consumeKind _hparen
    have hstart := length_afterOptional_le .LATERAL cursor.rest
    rw [← rest_consumeKeyword] at hstart
    exact Nat.lt_of_lt_of_le hinside hstart

theorem tableFactor_eq_innerFactor (tokens : List Token) :
    tableFactor tokens = innerFactor (afterOptional .LATERAL tokens) := by
  cases tokens <;> rfl

theorem innerFactor_of_ne {tokens : List Token} (h : tokens.head? ≠ some .openParen) :
    innerFactor tokens = namedFactor tokens := by
  cases tokens with
  | nil => rfl
  | cons token rest => cases token <;> first | rfl | exact absurd rfl h

/-- No name and no group starts with `LATERAL`. -/
theorem afterOptional_lateral {tokens : List Token}
    (h : tokens.head?.any (fun token => token == .openParen || startsName token) = true) :
    afterOptional .LATERAL tokens = tokens := by
  cases tokens with
  | nil => rfl
  | cons token rest =>
      rw [afterOptional, if_neg]
      intro hlateral
      obtain ⟨value, rfl, hvalue⟩ :=
        Token.exists_word_of_keyword? (Token.isKeyword_iff.mp hlateral)
      simp [startsName, hvalue] at h

/-- Where neither a group nor a name starts, no factor can be read. -/
theorem innerFactor_eq_unnamed {tokens : List Token}
    (h : ¬ tokens.head?.any (fun token => token == .openParen || startsName token) = true) :
    innerFactor tokens = .unnamed := by
  cases tokens with
  | nil => rfl
  | cons token rest =>
      simp only [List.head?_cons, Option.any_some, Bool.or_eq_true, beq_iff_eq, not_or] at h
      rw [innerFactor_of_ne (by simpa using h.1), namedFactor, if_neg]
      simpa using h.2

/-- What a cursor reads as a table factor is what the tokens at which it stands say. -/
theorem tableFactor_rest (cursor : Cursor) : tableFactor cursor.rest = cursor.readFactor.1 := by
  fun_induction readFactor cursor with
  | case1 cursor inside hparen hfirst ih =>
      rw [← head?_rest] at hfirst
      have hinside := rest_of_consumeKind isMark_openParen hparen
      rw [tableFactor_eq_innerFactor, ← rest_consumeKeyword, hinside, innerFactor]
      -- the token behind the parenthesis is a parenthesis again or a name, and never `LATERAL`
      rw [← ih, tableFactor_eq_innerFactor, afterOptional_lateral hfirst]
  | case2 cursor inside hparen hfirst =>
      rw [← head?_rest] at hfirst
      have hinside := rest_of_consumeKind isMark_openParen hparen
      rw [tableFactor_eq_innerFactor, ← rest_consumeKeyword, hinside, innerFactor]
      exact innerFactor_eq_unnamed hfirst
  | case3 cursor start hparen =>
      obtain ⟨rfl, hne⟩ := stays_of_consumeKind isMark_openParen hparen
      rw [tableFactor_eq_innerFactor, ← rest_consumeKeyword, innerFactor_of_ne hne,
        namedFactor_rest]

/-- The references of a statement are read by cursors that start behind its openers and live
commas. -/
theorem extractReferences_eq_filterMap_read (tokens : List Token) :
    extractReferences tokens =
      ((List.range tokens.length).filter fun i =>
        isOpener tokens i || isLiveComma tokens i).filterMap fun i =>
          (Cursor.mk tokens (i + 1)).readFactor.1.reference? := by
  rw [extractReferences_eq_filterMap, List.filterMap_filter]
  congr 1
  funext i
  have hread : readAfter tokens i = (Cursor.mk tokens (i + 1)).readFactor.1.reference? :=
    congrArg Factor.reference? (tableFactor_rest (Cursor.mk tokens (i + 1)))
  rw [referenceAt_eq_readAfter, hread]

end TableLineage.Sql.Cursor
