import Mathlib.Data.List.Forall2
import TableLineage.Proofs.Sql.CteGrammar
import TableLineage.Proofs.Sql.NameTokens
import TableLineage.Proofs.Text.LetterCase
import TableLineage.Sql.Catalog

/-!
# Lineage and the case of letters

Two token lists that differ only in the case of ASCII letters in words define the same common table
expressions and refer to the same tables, whatever the catalog (`lineage_ignores_letter_case`).

## Strategy

Both lists have the same tokens in small letters (`Token.folded`).  Keywords are compared in
capitals and all other tests look at the kind of a token only, so every reader commutes with
folding: on folded tokens it takes the same steps and reads what it would have read, folded.  This
is one equation for each reader, up to the whole walk (`extractReferences_folded`) and the
definitions (`definedNames_folded`).  A name between bracket tokens is put together from words and
numbers, which is why numbers are folded too.  Scopes and canonical names are in lower case and do
not see the folding.
-/

namespace TableLineage.Sql

theorem Keyword.ofWord?_toLower (word : String) :
    Keyword.ofWord? word.toLower = Keyword.ofWord? word := by
  have hcapitals : word.toLower.toList.map Char.toUpper = word.toList.map Char.toUpper := by
    rw [Text.toList_toLower, List.map_map]
    exact List.map_congr_left fun c _ => Text.toUpper_toLower c
  rw [ofWord?, ofWord?, hcapitals]

/-! ## Tokens in small letters -/

namespace Token

/-- The token with small ASCII letters in its text. -/
def folded : Token → Token
  | word value quote => word value.toLower quote
  | number text => number text.toLower
  | token => token

/-- Two tokens are equal, or words in the same quotes that differ only in the case of ASCII
letters. -/
inductive SameUpToCase : Token → Token → Prop
  | refl (token : Token) : SameUpToCase token token
  | word {text recased : String} (quote : Option QuoteMark) (h : Text.SameUpToCase text recased) :
      SameUpToCase (word text quote) (word recased quote)

theorem SameUpToCase.folded_eq {token recased : Token} (h : SameUpToCase token recased) :
    token.folded = recased.folded := by
  cases h with
  | refl => rfl
  | word quote h => rw [folded, folded, h.toLower_eq]

@[simp] theorem keyword?_folded (token : Token) : token.folded.keyword? = token.keyword? := by
  cases token with
  | word value quote =>
      cases quote with
      | none => exact Keyword.ofWord?_toLower value
      | some mark => rfl
  | _ => rfl

@[simp] theorem isKeyword_folded (token : Token) (keyword : Keyword) :
    token.folded.isKeyword keyword = token.isKeyword keyword := by
  rw [isKeyword, isKeyword, keyword?_folded]

/-- Punctuation is what it was. -/
theorem folded_beq {mark : Token} (hmark : mark ∈ [openParen, comma, period, closeBracket])
    (token : Token) : (token.folded == mark) = (token == mark) := by
  simp only [List.mem_cons, List.not_mem_nil, or_false] at hmark
  rcases hmark with rfl | rfl | rfl | rfl <;> cases token <;> simp [folded]

theorem head?_folded {mark : Token} (hmark : mark ∈ [openParen, comma, period, closeBracket])
    (tokens : List Token) :
    (tokens.map folded).head? = some mark ↔ tokens.head? = some mark := by
  cases tokens with
  | nil => rfl
  | cons token rest =>
      have hsame : token.folded = mark ↔ token = mark := by
        rw [← beq_iff_eq, folded_beq hmark, beq_iff_eq]
      rw [List.map_cons, List.head?_cons, List.head?_cons, Option.some.injEq, Option.some.injEq]
      exact hsame

theorem isStructural_folded (token : Token) : token.folded.isStructural = token.isStructural := by
  cases token <;> rfl

theorem endsFrom_folded (token : Token) : token.folded.endsFrom = token.endsFrom := by
  rw [endsFrom, endsFrom, keyword?_folded]

end Token

/-! ## Names -/

/-- The part with small ASCII letters. -/
def NamePart.folded (part : NamePart) : NamePart :=
  { part with value := part.value.toLower }

/-- The reference with small ASCII letters. -/
def TableReference.folded (reference : TableReference) : TableReference :=
  ⟨reference.parts.map NamePart.folded⟩

theorem TableReference.canonical_folded (reference : TableReference) :
    reference.folded.canonical = reference.canonical := by
  have hvalues : reference.folded.parts.map (·.value) =
      (reference.parts.map (·.value)).map String.toLower := by
    simp only [folded, List.map_map, Function.comp_def, NamePart.folded]
  rw [canonical, canonical, hvalues, Table.canonicalName_map_toLower]

theorem TableReference.isQualified_folded (reference : TableReference) :
    reference.folded.isQualified = reference.isQualified := by
  rw [isQualified, isQualified, folded, List.length_map]

theorem bracketWord?_folded (token : Token) :
    bracketWord? token.folded = (bracketWord? token).map String.toLower := by
  cases token <;> rfl

/-- What brackets hold is folded with the tokens. -/
theorem namePart_folded (tokens : List Token) :
    namePart (tokens.map Token.folded) =
      ((namePart tokens).1.map NamePart.folded, (namePart tokens).2.map Token.folded) := by
  cases tokens with
  | nil => rfl
  | cons token rest =>
      cases token with
      | openBracket =>
          -- the bracket ends at the same token, and the words in it are folded one by one
          have hinside : (rest.map Token.folded).takeWhile (· != .closeBracket) =
              (rest.takeWhile (· != .closeBracket)).map Token.folded := by
            rw [List.takeWhile_map]
            simp only [Function.comp_def, bne, @Token.folded_beq .closeBracket (by simp)]
          have hwords : ((rest.takeWhile (· != .closeBracket)).map Token.folded).filterMap
                bracketWord? =
              ((rest.takeWhile (· != .closeBracket)).filterMap bracketWord?).map
                String.toLower := by
            rw [List.filterMap_map, List.map_filterMap]
            simp only [Function.comp_def, bracketWord?_folded]
          have hblank : " ".toLower = " " :=
            String.toList_injective (by rw [Text.toList_toLower]; decide)
          show namePart (.openBracket :: rest.map Token.folded) = _
          rw [namePart, namePart]
          simp only [hinside, hwords, List.isEmpty_map, List.length_map, List.map_drop,
            Text.intercalate_map_toLower hblank]
          split <;> rfl
      | _ => rfl

theorem afterPeriods_folded (tokens : List Token) :
    afterPeriods (tokens.map Token.folded) = (afterPeriods tokens).map Token.folded := by
  rw [afterPeriods, afterPeriods, List.dropWhile_map]
  simp only [Function.comp_def, @Token.folded_beq .period (by simp)]

/-- The parts of a name are folded one by one. -/
theorem furtherParts_folded (tokens : List Token) :
    furtherParts (tokens.map Token.folded) =
      ((furtherParts tokens).1.map NamePart.folded, (furtherParts tokens).2.map Token.folded) := by
  induction tokens using furtherParts_induction with
  | part after part hpart ih =>
      have hnext : namePart (afterPeriods (after.map Token.folded)) =
          (some part.folded, (namePart (afterPeriods after)).2.map Token.folded) := by
        rw [afterPeriods_folded, namePart_folded, hpart, Option.map_some]
      show furtherParts (.period :: after.map Token.folded) = _
      rw [furtherParts_period hnext, ih, furtherParts_period (Prod.ext hpart rfl)]
      rfl
  | noPart after hnone =>
      have hnext : (namePart (afterPeriods (after.map Token.folded))).1 = none := by
        rw [afterPeriods_folded, namePart_folded, hnone, Option.map_none]
      show furtherParts (.period :: after.map Token.folded) = _
      rw [furtherParts_period_none hnext, furtherParts_period_none hnone, afterPeriods_folded,
        namePart_folded, List.map_nil]
  | stop tokens hne =>
      rw [furtherParts_of_ne (mt (Token.head?_folded (by simp) tokens).mp hne),
        furtherParts_of_ne hne, List.map_nil]

theorem objectName?_folded (tokens : List Token) :
    objectName? (tokens.map Token.folded) =
      (objectName? tokens).map fun (reference, rest) =>
        (reference.folded, rest.map Token.folded) := by
  rw [objectName?, objectName?, namePart_folded]
  simp only [furtherParts_folded, Option.map_map]
  rfl

/-! ## Table factors -/

/-- The factor with small ASCII letters. -/
def Factor.folded : Factor → Factor
  | table reference => table reference.folded
  | function name => function name.folded
  | unnamed => unnamed

theorem Factor.reference?_folded (factor : Factor) :
    factor.folded.reference? = factor.reference?.map TableReference.folded := by
  cases factor <;> rfl

theorem startsName_folded (token : Token) : startsName token.folded = startsName token := by
  cases token with
  | word value quote =>
      cases quote with
      | some mark => rfl
      | none => simp only [Token.folded, startsName, Keyword.ofWord?_toLower]
  | _ => rfl

theorem namedFactor_folded (tokens : List Token) :
    namedFactor (tokens.map Token.folded) = (namedFactor tokens).folded := by
  have hstarts : (tokens.map Token.folded).head?.map startsName = tokens.head?.map startsName := by
    rw [List.head?_map, Option.map_map]
    simp only [Function.comp_def, startsName_folded]
  rw [namedFactor, namedFactor, hstarts, objectName?_folded]
  split
  · cases objectName? tokens with
    | none => rfl
    | some found =>
        -- the token after the name tells a function from a table
        obtain ⟨name, rest⟩ := found
        cases rest with
        | nil => rfl
        | cons token rest => cases token <;> rfl
  · rfl

theorem innerFactor_folded (tokens : List Token) :
    innerFactor (tokens.map Token.folded) = (innerFactor tokens).folded := by
  induction tokens with
  | nil => exact namedFactor_folded []
  | cons token rest ih =>
      cases token with
      | openParen => exact ih
      | _ => exact namedFactor_folded (_ :: rest)

theorem tableFactor_folded (tokens : List Token) :
    tableFactor (tokens.map Token.folded) = (tableFactor tokens).folded := by
  cases tokens with
  | nil => rfl
  | cons token rest =>
      rw [List.map_cons, tableFactor, tableFactor, Token.isKeyword_folded, ← innerFactor_folded]
      split <;> rfl

/-! ## The walk -/

theorem opensQuery_folded (before after : Option Token) :
    opensQuery (before.map Token.folded) (after.map Token.folded) = opensQuery before after := by
  simp only [opensQuery, Option.any_map, Token.isKeyword_folded,
    @Token.folded_beq .openParen (by simp)]

theorem opensFactor_folded (before : Option Token) (token : Token) :
    opensFactor (before.map Token.folded) token.folded = opensFactor before token := by
  simp only [opensFactor, Option.any_map, Token.isKeyword_folded]

/-- A step on folded tokens leads to the same levels and finds the same, folded. -/
theorem walkToken_folded (frames : Frames) (before : Option Token) (token : Token)
    (rest : List Token) :
    (walkToken frames (before.map Token.folded) token.folded (rest.map Token.folded)).1 =
        (walkToken frames before token rest).1 ∧
      (walkToken frames (before.map Token.folded) token.folded
          (rest.map Token.folded)).2.bind Finding.reference? =
        ((walkToken frames before token rest).2.bind Finding.reference?).map
          TableReference.folded := by
  have hreference : (tableFactor (rest.map Token.folded)).reference? =
      (tableFactor rest).reference?.map TableReference.folded := by
    rw [tableFactor_folded, Factor.reference?_folded]
  cases hstructural : token.isStructural with
  | false =>
      -- a word takes its effect from its keyword, which the letter case does not change
      have hfolded : token.folded.isStructural = false := by
        rw [Token.isStructural_folded, hstructural]
      obtain ⟨hnext, hfound⟩ := walkToken_word frames before rest hstructural
      obtain ⟨hnext', hfound'⟩ := walkToken_word frames (before.map Token.folded)
        (rest.map Token.folded) hfolded
      rw [hnext, hfound, hnext', hfound', Token.endsFrom_folded, opensFactor_folded, hreference]
      refine ⟨rfl, ?_⟩
      split <;> rfl
  | true =>
      cases token with
      | openParen =>
          show (frames.push (opensQuery _ _), none).1 = _ ∧ _
          rw [List.head?_map, opensQuery_folded]
          exact ⟨rfl, rfl⟩
      | closeParen => exact ⟨rfl, rfl⟩
      | comma =>
          refine ⟨rfl, ?_⟩
          show (walkToken frames _ .comma _).2.bind _ = _
          rw [walkToken_comma, walkToken_comma]
          split
          · exact hreference
          · rfl
      | _ => cases hstructural

theorem referencesFrom_folded (frames : Frames) (before : Option Token) (tokens : List Token) :
    referencesFrom frames (before.map Token.folded) (tokens.map Token.folded) =
      (referencesFrom frames before tokens).map TableReference.folded := by
  induction tokens generalizing frames before with
  | nil => rfl
  | cons token rest ih =>
      obtain ⟨hnext, hfound⟩ := walkToken_folded frames before token rest
      rw [List.map_cons, referencesFrom_cons, referencesFrom_cons, List.map_append]
      -- one step finds the folded reference and goes on with the same frames
      rw [hnext, hfound, ← ih]
      cases (walkToken frames before token rest).2.bind Finding.reference? <;> rfl

theorem extractReferences_folded (statement : List Token) :
    extractReferences (statement.map Token.folded) =
      (extractReferences statement).map TableReference.folded :=
  referencesFrom_folded .top none statement

/-! ## Common table expressions -/

theorem groupLength_folded (depth : Nat) (tokens : List Token) :
    groupLength depth (tokens.map Token.folded) = groupLength depth tokens := by
  induction tokens generalizing depth with
  | nil => rfl
  | cons token rest ih =>
      cases token with
      | openParen => exact congrArg (· + 1) (ih (depth + 1))
      | closeParen =>
          cases depth with
          | zero => rfl
          | succ inner => exact congrArg (· + 1) (ih inner)
      | _ => exact congrArg (· + 1) (ih depth)

theorem afterGroup_folded (tokens : List Token) :
    afterGroup (tokens.map Token.folded) = (afterGroup tokens).map Token.folded := by
  have hlength : openingGroupLength (tokens.map Token.folded) = openingGroupLength tokens := by
    cases tokens with
    | nil => rfl
    | cons token rest =>
        cases token with
        | openParen => exact congrArg (· + 1) (groupLength_folded 0 rest)
        | _ => rfl
  rw [afterGroup, afterGroup, hlength, List.map_drop]

theorem afterOptional_folded (keyword : Keyword) (tokens : List Token) :
    afterOptional keyword (tokens.map Token.folded) =
      (afterOptional keyword tokens).map Token.folded := by
  cases tokens with
  | nil => rfl
  | cons token rest =>
      rw [List.map_cons, afterOptional, afterOptional, Token.isKeyword_folded]
      split <;> rfl

theorem definition?_folded (tokens : List Token) :
    definition? (tokens.map Token.folded) =
      (definition? tokens).map fun (name, rest) => (name.toLower, rest.map Token.folded) := by
  cases tokens with
  | nil => rfl
  | cons token rest =>
      cases token with
      | word name quote =>
          show definition? (.word name.toLower quote :: rest.map Token.folded) = _
          rw [definition?, definition?, afterGroup_folded]
          cases afterGroup rest with
          | nil => rfl
          | cons as after =>
              simp only [List.map_cons, Token.isKeyword_folded, afterOptional_folded,
                @Token.head?_folded .openParen (by simp), afterGroup_folded]
              split
              · split <;> rfl
              · rfl
      | _ => rfl

theorem definition?_folded_of_some {tokens rest : List Token} {name : String}
    (h : definition? tokens = some (name, rest)) :
    definition? (tokens.map Token.folded) = some (name.toLower, rest.map Token.folded) := by
  rw [definition?_folded, h]
  rfl

theorem definitions_folded (tokens : List Token) :
    definitions (tokens.map Token.folded) = (definitions tokens).map String.toLower := by
  induction tokens using definitions.induct with
  | case1 tokens hnone =>
      have hfolded : definition? (tokens.map Token.folded) = none := by
        rw [definition?_folded, hnone]
        rfl
      rw [definitions_of_none hnone, definitions_of_none hfolded]
      rfl
  | case2 tokens name rest hsome hcomma ih =>
      have hfolded := definition?_folded_of_some hsome
      have hfoldedComma := (Token.head?_folded (by simp) rest).mpr hcomma
      rw [definitions_of_some hsome, if_pos hcomma, definitions_of_some hfolded,
        if_pos hfoldedComma]
      rw [← List.map_tail, ih, List.map_cons]
  | case3 tokens name rest hsome hcomma =>
      have hfolded := definition?_folded_of_some hsome
      rw [definitions_of_some hsome, definitions_of_some hfolded, if_neg hcomma,
        if_neg (mt (Token.head?_folded (by simp) rest).mp hcomma)]
      rfl

theorem definedNames_folded (tokens : List Token) :
    definedNames (tokens.map Token.folded) = (definedNames tokens).map String.toLower := by
  induction tokens with
  | nil => rfl
  | cons token rest ih =>
      rw [List.map_cons, definedNames, definedNames, ih]
      rw [Token.isKeyword_folded, afterOptional_folded, definitions_folded]
      split
      · rw [List.map_append]
      · rfl

theorem CteScope.insert_toLower (scope : CteScope) (name : String) :
    scope.insert name.toLower = scope.insert name := by
  simp only [insert, Text.lowercase_toLower]

theorem CteScope.ofNames_map_toLower (names : List String) :
    ofNames (names.map String.toLower) = ofNames names := by
  rw [ofNames, ofNames, List.foldl_map]
  simp only [insert_toLower]

theorem collectCtes_folded (statement : List Token) :
    collectCtes (statement.map Token.folded) = collectCtes statement := by
  rw [collectCtes, definedNames_folded, CteScope.ofNames_map_toLower, collectCtes]

/-! ## Lineage -/

theorem resolve_folded (catalog : ModelCatalog) (ctes : CteScope) (reference : TableReference) :
    resolve catalog ctes reference.folded = resolve catalog ctes reference := by
  rw [resolve, resolve, TableReference.isQualified_folded, TableReference.canonical_folded]

/-- References to the same table, whatever the statement's scope and the catalog are. -/
structure SameTable (reference recased : TableReference) : Prop where
  canonical_eq : reference.canonical = recased.canonical
  isQualified_eq : reference.isQualified = recased.isQualified
  resolve_eq : ∀ catalog ctes, resolve catalog ctes reference = resolve catalog ctes recased

theorem sameTable_of_folded_eq {reference recased : TableReference}
    (h : reference.folded = recased.folded) : SameTable reference recased where
  canonical_eq := by
    rw [← TableReference.canonical_folded, h, TableReference.canonical_folded]
  isQualified_eq := by
    rw [← TableReference.isQualified_folded, h, TableReference.isQualified_folded]
  resolve_eq catalog ctes := by
    rw [← resolve_folded, h, resolve_folded]

/-- **Lineage ignores the case of ASCII letters.**  Token lists that differ only in the case of
letters in words have the same common table expressions, and their references are as many and mean
the same tables one by one. -/
theorem lineage_ignores_letter_case {tokens recased : List Token}
    (h : List.Forall₂ Token.SameUpToCase tokens recased) :
    collectCtes tokens = collectCtes recased ∧
      List.Forall₂ SameTable (extractReferences tokens) (extractReferences recased) := by
  have hfolded : tokens.map Token.folded = recased.map Token.folded := by
    induction h with
    | nil => rfl
    | cons htoken _ ih => rw [List.map_cons, List.map_cons, htoken.folded_eq, ih]
  constructor
  · rw [← collectCtes_folded, hfolded, collectCtes_folded]
  · have hreferences : (extractReferences tokens).map TableReference.folded =
        (extractReferences recased).map TableReference.folded := by
      rw [← extractReferences_folded, hfolded, extractReferences_folded]
    have hpairs : List.Forall₂ (· = ·) ((extractReferences tokens).map TableReference.folded)
        ((extractReferences recased).map TableReference.folded) := by
      rw [List.forall₂_eq_eq_eq]
      exact hreferences
    rw [List.forall₂_map_left_iff, List.forall₂_map_right_iff] at hpairs
    exact hpairs.imp fun _ _ => sameTable_of_folded_eq

/-- A query with a common table expression and a name between bracket tokens, its words as given. -/
def queryOfWords (withWord name selectWord fromWord joinWord inBrackets : String) : List Token :=
  [.word withWord none, .word name none, .word "AS" none, .openParen, .word selectWord none,
    .number "1", .closeParen, .word selectWord none, .other, .word fromWord none,
    .word name (some .double), .word joinWord none, .openBracket, .word inBrackets none,
    .number "1E5", .closeBracket]

theorem lineage_of_recased_query :
    List.Forall₂ Token.SameUpToCase
        (queryOfWords "WITH" "Recent" "SELECT" "FROM" "JOIN" "Orders")
        (queryOfWords "with" "rECENT" "Select" "from" "jOIN" "ORDERS") ∧
      collectCtes (queryOfWords "WITH" "Recent" "SELECT" "FROM" "JOIN" "Orders") =
        collectCtes (queryOfWords "with" "rECENT" "Select" "from" "jOIN" "ORDERS") ∧
      List.Forall₂ SameTable
        (extractReferences (queryOfWords "WITH" "Recent" "SELECT" "FROM" "JOIN" "Orders"))
        (extractReferences (queryOfWords "with" "rECENT" "Select" "from" "jOIN" "ORDERS")) := by
  have hrecased : List.Forall₂ Token.SameUpToCase
      (queryOfWords "WITH" "Recent" "SELECT" "FROM" "JOIN" "Orders")
      (queryOfWords "with" "rECENT" "Select" "from" "jOIN" "ORDERS") := by
    repeat' first
      | exact .nil
      | refine .cons (.refl _) ?_
      | refine .cons (.word _ (by decide)) ?_
  exact ⟨hrecased, lineage_ignores_letter_case hrecased⟩

end TableLineage.Sql
