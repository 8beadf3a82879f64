import TableLineage.Proofs.Sql.EnclosingGroup
import TableLineage.Proofs.Sql.ReadsAlike

/-!
# Keywords that are read as names

The reader of factors starts no name at `SELECT`, `WITH`, `VALUES`, `LATERAL` and `UNNEST`
(`Keyword.mayStartName`).  Any other keyword is a name like every word, also one that the walk takes
for a part of the clause when it comes to it: `FROM`, `JOIN` and all but one of the words that end
`FROM` clauses.  So a keyword is the first part of a reference just if a factor starts with it
(`leading_keywords_of_references`), as in

```text
FROM (FROM a)             FROM, a
FROM a, WHERE a.id = 1    a, WHERE
FROM JOIN a               JOIN, a
```

A reference shows in its first part what the name was read from: an unquoted word, or one in quotes
(`leadingKeyword?_of_namedFactor`).
-/

namespace TableLineage.Sql

/-! ## Keywords -/

namespace Keyword

/-- Whether a factor may have the keyword as its name. -/
def mayStartName : Keyword → Bool
  | SELECT | WITH | VALUES | LATERAL | UNNEST => false
  | _ => true

/-- Whether a keyword is a part of a clause: it introduces tables or a query, or it ends a `FROM`
clause. -/
def isClauseKeyword (keyword : Keyword) : Bool :=
  keyword ∈ [FROM, JOIN, LATERAL, SELECT, WITH, VALUES] || keyword.endsFrom

end Keyword

/-- The keyword that the first part of a reference is; a quoted part is none. -/
def TableReference.leadingKeyword? (reference : TableReference) : Option Keyword :=
  reference.parts.head?.bind fun part => if part.quoted then none else Keyword.ofWord? part.value

variable {tokens : List Token} {token : Token} {reference : TableReference} {keyword : Keyword}

theorem startsName_of_keyword? (h : token.keyword? = some keyword) :
    startsName token = keyword.mayStartName := by
  cases token with
  | word value quote =>
      cases quote with
      | some mark => cases h
      | none =>
          have hword : Keyword.ofWord? value = some keyword := h
          rw [startsName, hword]
          cases keyword <;> rfl
  | _ => cases h

/-- The first part of a name is the keyword that the name was read from. -/
theorem leadingKeyword?_of_objectName? {rest : List Token}
    (h : objectName? tokens = some (reference, rest)) :
    reference.leadingKeyword? = tokens.head?.bind Token.keyword? := by
  rw [objectName?_eq, Option.map_eq_some_iff] at h
  obtain ⟨part, hpart, heq⟩ := h
  obtain ⟨rfl, -⟩ := Prod.mk.inj heq
  cases tokens with
  | nil => cases hpart
  | cons token rest =>
      cases token with
      | word value quote =>
          obtain rfl := Option.some.inj hpart
          cases quote <;> rfl
      | openBracket =>
          rw [namePart, Option.ite_none_left_eq_some] at hpart
          obtain rfl := Option.some.inj hpart.2
          rfl
      | _ => cases hpart

theorem leadingKeyword?_of_namedFactor (h : (namedFactor tokens).reference? = some reference) :
    reference.leadingKeyword? = tokens.head?.bind Token.keyword? := by
  obtain ⟨-, rest, hread, -⟩ := reference?_namedFactor_eq_some_iff.mp h
  exact leadingKeyword?_of_objectName? hread

/-! ## Factors -/

/-- The factor at the start of the tokens has a keyword where its name starts, and it calls no
function. -/
structure IsNamedBy (keyword : Keyword) (tokens : List Token) : Prop where
  first : (factorStart tokens).head?.bind Token.keyword? = some keyword
  uncalled : (furtherParts (factorStart tokens).tail).2.head? ≠ some .openParen

instance (keyword : Keyword) (tokens : List Token) : Decidable (IsNamedBy keyword tokens) :=
  decidable_of_iff (_ ∧ _) ⟨fun ⟨hfirst, huncalled⟩ => ⟨hfirst, huncalled⟩,
    fun h => ⟨h.first, h.uncalled⟩⟩

/-- A keyword is a name of one word, with what follows it after periods. -/
theorem objectName?_of_keyword? (h : token.keyword? = some keyword) (rest : List Token) :
    ∃ reference, objectName? (token :: rest) = some (reference, (furtherParts rest).2) := by
  cases token with
  | word value quote => exact ⟨_, rfl⟩
  | _ => cases h

/-- The reference of a factor starts with a keyword just if the factor is named by it and it may
start a name. -/
theorem exists_leadingKeyword?_tableFactor_iff :
    (∃ reference, (tableFactor tokens).reference? = some reference ∧
      reference.leadingKeyword? = some keyword) ↔
      keyword.mayStartName = true ∧ IsNamedBy keyword tokens := by
  rw [tableFactor_eq]
  constructor
  · rintro ⟨reference, hread, hkeyword⟩
    -- the keyword is the first word of the factor, and the name is no function
    rw [leadingKeyword?_of_namedFactor hread] at hkeyword
    obtain ⟨token, hhead, htoken⟩ := Option.bind_eq_some_iff.mp hkeyword
    obtain ⟨hstarts, rest, hname, hrest⟩ := reference?_namedFactor_eq_some_iff.mp hread
    rw [hhead, Option.map_some, Option.getD_some, startsName_of_keyword? htoken] at hstarts
    refine ⟨hstarts, hkeyword, ?_⟩
    obtain ⟨after, hafter⟩ := List.head?_eq_some_iff.mp hhead
    obtain ⟨other, hother⟩ := objectName?_of_keyword? htoken after
    rw [hafter, hother] at hname
    obtain ⟨-, rfl⟩ := Prod.mk.inj (Option.some.inj hname)
    rwa [hafter, List.tail_cons]
  · rintro ⟨hstarts, hfirst, huncalled⟩
    obtain ⟨token, hhead, htoken⟩ := Option.bind_eq_some_iff.mp hfirst
    obtain ⟨after, hafter⟩ := List.head?_eq_some_iff.mp hhead
    -- a word is a name by itself, if it may start one
    obtain ⟨reference, hname⟩ := objectName?_of_keyword? htoken after
    rw [hafter, List.tail_cons] at huncalled
    refine ⟨reference, reference?_namedFactor_eq_some_iff.mpr ⟨?_, _, ?_, huncalled⟩, ?_⟩
    · rw [hhead, Option.map_some, Option.getD_some, startsName_of_keyword? htoken, hstarts]
    · rw [hafter, hname]
    · rw [leadingKeyword?_of_objectName? (hafter ▸ hname), hfirst]

/-! ## References -/

theorem exists_leadingKeyword?_iff :
    (∃ reference ∈ extractReferences tokens, reference.leadingKeyword? = some keyword) ↔
      keyword.mayStartName = true ∧
        ∃ i, (isOpener tokens i || isLiveComma tokens i) = true ∧
          IsNamedBy keyword (tokens.drop (i + 1)) := by
  constructor
  · rintro ⟨reference, hmem, hkeyword⟩
    obtain ⟨i, hstart, hread⟩ := mem_extractReferences_iff.mp hmem
    obtain ⟨hstarts, hnamed⟩ :=
      exists_leadingKeyword?_tableFactor_iff.mp ⟨reference, hread, hkeyword⟩
    exact ⟨hstarts, i, hstart, hnamed⟩
  · rintro ⟨hstarts, i, hstart, hnamed⟩
    obtain ⟨reference, hread, hkeyword⟩ :=
      exists_leadingKeyword?_tableFactor_iff.mpr ⟨hstarts, hnamed⟩
    exact ⟨reference, mem_extractReferences_iff.mpr ⟨i, hstart, hread⟩, hkeyword⟩

/-- The parts of clauses that may start a name. -/
theorem isClauseKeyword_and_mayStartName_iff (keyword : Keyword) :
    keyword.isClauseKeyword = true ∧ keyword.mayStartName = true ↔
      keyword = .FROM ∨ keyword = .JOIN ∨ keyword.endsFrom = true ∧ keyword ≠ .SELECT := by
  cases keyword <;> decide

/-- **Which keywords are read as names.**  For every list of tokens, a keyword is the first part of
a reference just if it may start a name and a factor after an opener or a live comma is named by it.
So no reference starts with a part of a clause just if no factor is named by `FROM`, by `JOIN` or by
a word other than `SELECT` that ends `FROM` clauses. -/
theorem leading_keywords_of_references (tokens : List Token) :
    (∀ keyword : Keyword,
      (∃ reference ∈ extractReferences tokens, reference.leadingKeyword? = some keyword) ↔
        keyword.mayStartName = true ∧
          ∃ i, (isOpener tokens i || isLiveComma tokens i) = true ∧
            IsNamedBy keyword (tokens.drop (i + 1))) ∧
    ((∀ reference ∈ extractReferences tokens, ∀ keyword,
        reference.leadingKeyword? = some keyword → keyword.isClauseKeyword = false) ↔
      ∀ i, (isOpener tokens i || isLiveComma tokens i) = true → ∀ keyword : Keyword,
        (keyword = .FROM ∨ keyword = .JOIN ∨ keyword.endsFrom = true ∧ keyword ≠ .SELECT) →
          ¬ IsNamedBy keyword (tokens.drop (i + 1))) := by
  refine ⟨fun keyword => exists_leadingKeyword?_iff, ?_, ?_⟩
  · intro hnone i hstart keyword hkeyword hnamed
    -- a clause keyword that may start a name would lead a reference
    obtain ⟨hclause, hstarts⟩ := (isClauseKeyword_and_mayStartName_iff keyword).mpr hkeyword
    obtain ⟨reference, hmem, hfirst⟩ := exists_leadingKeyword?_iff.mpr ⟨hstarts, i, hstart, hnamed⟩
    rw [hnone reference hmem keyword hfirst] at hclause
    cases hclause
  · intro hnone reference hmem keyword hfirst
    obtain ⟨hstarts, i, hstart, hnamed⟩ := exists_leadingKeyword?_iff.mp ⟨reference, hmem, hfirst⟩
    by_contra hclause
    rw [Bool.not_eq_false] at hclause
    exact hnone i hstart keyword
      ((isClauseKeyword_and_mayStartName_iff keyword).mp ⟨hclause, hstarts⟩) hnamed

/-- The inner `FROM` is the name of the factor after the outer one, and opens a factor of its
own. -/
example :
    (extractReferences [.word "FROM" none, .openParen, .word "FROM" none, .word "a" none,
      .closeParen]).map
      TableReference.leadingKeyword? = [some .FROM, none] := by
  decide +kernel

end TableLineage.Sql
