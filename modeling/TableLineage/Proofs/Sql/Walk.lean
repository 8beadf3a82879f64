import Mathlib.Data.List.Basic
import TableLineage.Sql.Reference

/-!
# The walk through a statement, token by token

The references of a statement are what the walk finds from the top level on.  This file gives one
equation for each kind of token: what the token does to the levels, and what it refers to.  A token
matters only by its keyword and by being a parenthesis or a comma, so that all that is said about
the walk elsewhere follows from these equations.
-/

namespace TableLineage.Sql

namespace Token

/-- Whether a token is one of the words after which a parenthesis opens a query. -/
def introducesTable (token : Token) : Bool :=
  token.isKeyword .FROM || token.isKeyword .JOIN || token.isKeyword .LATERAL

theorem isKeyword_iff {token : Token} {keyword : Keyword} :
    token.isKeyword keyword = true ↔ token.keyword? = some keyword := by
  simp [isKeyword]

/-- A keyword is an unquoted word. -/
theorem exists_word_of_keyword? {token : Token} {keyword : Keyword}
    (h : token.keyword? = some keyword) :
    ∃ value, token = .word value none ∧ Keyword.ofWord? value = some keyword := by
  cases token with
  | word value quote =>
      cases quote with
      | none => exact ⟨value, rfl, h⟩
      | some mark => cases h
  | _ => cases h

/-- Whether a token opens or closes a level or separates table factors. -/
def isStructural : Token → Bool
  | openParen | closeParen | comma => true
  | _ => false

theorem isStructural_of_keyword? {token : Token} {keyword : Keyword}
    (h : token.keyword? = some keyword) : token.isStructural = false := by
  obtain ⟨value, rfl, -⟩ := exists_word_of_keyword? h
  rfl

theorem not_structural_of_introducesTable {token : Token} (h : token.introducesTable = true) :
    token.isStructural = false := by
  cases token <;> first | rfl | cases h

end Token

/-- Whether a keyword has no effect on the walk at its own token. -/
def Keyword.isInert (keyword : Keyword) : Bool :=
  !keyword.endsFrom && keyword != .FROM && keyword != .JOIN

/-! ## Levels -/

namespace Frames

@[simp] theorem pop_setInFrom_push (frames : Frames) (query inFrom : Bool) :
    ((frames.push query).setInFrom inFrom).pop = frames := rfl

@[simp] theorem setInFrom_self (frames : Frames) :
    frames.setInFrom frames.current.inFrom = frames := rfl

end Frames

/-! ## One step -/

section Step

variable (frames : Frames) (before : Option Token) (rest : List Token)

theorem walkToken_openParen :
    walkToken frames before .openParen rest =
      (frames.push (opensQuery before rest.head?), none) := rfl

theorem walkToken_closeParen :
    walkToken frames before .closeParen rest = (frames.pop, none) := rfl

theorem walkToken_comma :
    walkToken frames before .comma rest =
      (frames,
        if frames.current.query && frames.current.inFrom then some (.factor (tableFactor rest))
        else none) := rfl

/-- A token without an effect of its own. -/
theorem walkToken_inert {token : Token} (hstructural : token.isStructural = false)
    (hkeyword : ∀ keyword, token.keyword? = some keyword → keyword.isInert = true) :
    walkToken frames before token rest = (frames, none) := by
  cases token with
  | word value quote =>
      cases quote with
      | some mark => rfl
      | none =>
          cases hword : Keyword.ofWord? value with
          | none => simp only [walkToken, hword]
          | some keyword =>
              have hinert := hkeyword keyword hword
              simp only [Keyword.isInert, Bool.and_eq_true, Bool.not_eq_true', bne_iff_ne,
                ne_eq] at hinert
              simp [walkToken, hword, hinert]
  | openParen | closeParen | comma => cases hstructural
  | _ => rfl

theorem walkToken_endsFrom {token : Token} {keyword : Keyword}
    (hkeyword : token.keyword? = some keyword) (hends : keyword.endsFrom = true) :
    walkToken frames before token rest = (frames.setInFrom false, none) := by
  obtain ⟨value, rfl, hword⟩ := Token.exists_word_of_keyword? hkeyword
  simp only [walkToken, hword, hends, if_true]

/-- A `FROM` or `JOIN` outside a query refers to nothing. -/
theorem walkToken_outsideQuery {token : Token}
    (hkeyword : token.keyword? = some .FROM ∨ token.keyword? = some .JOIN)
    (hquery : frames.current.query = false) :
    ∃ word, walkToken frames before token rest = (frames, some (.outsideQuery word)) := by
  rcases hkeyword with hkeyword | hkeyword <;>
    obtain ⟨value, rfl, hword⟩ := Token.exists_word_of_keyword? hkeyword <;>
    exact ⟨value, by simp [walkToken, hword, Keyword.endsFrom, hquery]⟩

/-- The `FROM` of `IS DISTINCT FROM` refers to nothing. -/
theorem walkToken_distinctFrom {token : Token} (hkeyword : token.keyword? = some .FROM)
    (hquery : frames.current.query = true)
    (hdistinct : before.any (·.isKeyword .DISTINCT) = true) :
    walkToken frames before token rest = (frames, none) := by
  obtain ⟨value, rfl, hword⟩ := Token.exists_word_of_keyword? hkeyword
  simp [walkToken, hword, Keyword.endsFrom, hquery, hdistinct]

/-- Any other `FROM` or `JOIN` in a query is followed by a table factor. -/
theorem walkToken_opener {token : Token} (hquery : frames.current.query = true)
    (hkeyword : token.keyword? = some .JOIN ∨
      (token.keyword? = some .FROM ∧ before.any (·.isKeyword .DISTINCT) = false)) :
    walkToken frames before token rest =
      (frames.setInFrom true, some (.factor (tableFactor rest))) := by
  rcases hkeyword with hkeyword | ⟨hkeyword, hdistinct⟩
  · obtain ⟨value, rfl, hword⟩ := Token.exists_word_of_keyword? hkeyword
    simp [walkToken, hword, Keyword.endsFrom, hquery]
  · obtain ⟨value, rfl, hword⟩ := Token.exists_word_of_keyword? hkeyword
    simp [walkToken, hword, Keyword.endsFrom, hquery, hdistinct]

/-- Whether a word introduces a table factor, if it stands in a query. -/
def opensFactor (before : Option Token) (token : Token) : Bool :=
  token.isKeyword .JOIN ||
    (token.isKeyword .FROM && !before.any (·.isKeyword .DISTINCT))

/-- Whether a token is a word that ends a `FROM` clause. -/
def Token.endsFrom (token : Token) : Bool :=
  token.keyword?.any Keyword.endsFrom

theorem opensFactor_of_endsFrom {token : Token} (h : token.endsFrom = true) :
    opensFactor before token = false := by
  cases hkeyword : token.keyword? with
  | none => simp [Token.endsFrom, hkeyword] at h
  | some keyword =>
      have hends : keyword.endsFrom = true := by simpa [Token.endsFrom, hkeyword] using h
      cases keyword <;> simp_all [opensFactor, Token.isKeyword, Keyword.endsFrom]

/-- A token that is neither a parenthesis nor a comma changes the current level only: a word that
ends clauses closes its `FROM` clause, and an opener of a query opens it and is followed by a
factor. -/
theorem walkToken_word {token : Token} (hstructural : token.isStructural = false) :
    (walkToken frames before token rest).1 =
        (if token.endsFrom then frames.setInFrom false
        else if frames.current.query && opensFactor before token then frames.setInFrom true
        else frames) ∧
      (walkToken frames before token rest).2.bind Finding.reference? =
        if frames.current.query && opensFactor before token then (tableFactor rest).reference?
        else none := by
  cases hkeyword : token.keyword? with
  | none =>
      rw [walkToken_inert frames before rest hstructural (by simp [hkeyword])]
      simp [Token.endsFrom, opensFactor, Token.isKeyword, hkeyword]
  | some keyword =>
      by_cases hends : keyword.endsFrom = true
      · have hopener : opensFactor before token = false :=
          opensFactor_of_endsFrom before (by simpa [Token.endsFrom, hkeyword] using hends)
        rw [walkToken_endsFrom frames before rest hkeyword hends]
        simp [Token.endsFrom, hkeyword, hends, hopener]
      · have hends' : token.endsFrom = false := by simpa [Token.endsFrom, hkeyword] using hends
        by_cases hopener : frames.current.query = true ∧ opensFactor before token = true
        · have hword : token.keyword? = some .JOIN ∨
              (token.keyword? = some .FROM ∧ before.any (·.isKeyword .DISTINCT) = false) := by
            simpa [opensFactor, Token.isKeyword_iff] using hopener.2
          rw [walkToken_opener frames before rest hopener.1 hword]
          simp [hends', hopener, Finding.reference?]
        · rw [if_neg (by simp [hends']), if_neg (by simpa using hopener),
            if_neg (by simpa using hopener)]
          -- a keyword with an effect that has none here: outside a query, or after `DISTINCT`
          by_cases hinert : keyword.isInert = true
          · rw [walkToken_inert frames before rest hstructural (by simp [hkeyword, hinert])]
            exact ⟨rfl, rfl⟩
          · have hword : token.keyword? = some .FROM ∨ token.keyword? = some .JOIN := by
              rw [hkeyword, Option.some.injEq, Option.some.injEq]
              by_contra hneither
              rw [not_or] at hneither
              exact hinert (by simp [Keyword.isInert, hends, hneither])
            cases hquery : frames.current.query with
            | false =>
                obtain ⟨word, hstep⟩ := walkToken_outsideQuery frames before rest hword hquery
                rw [hstep]
                exact ⟨rfl, rfl⟩
            | true =>
                have hnot : opensFactor before token = false := by simpa [hquery] using hopener
                have hfrom : token.keyword? = some .FROM ∧
                    before.any (·.isKeyword .DISTINCT) = true := by
                  rcases hword with hword | hword <;>
                    simp_all [opensFactor, Token.isKeyword]
                rw [walkToken_distinctFrom frames before rest hfrom.1 hquery hfrom.2]
                exact ⟨rfl, rfl⟩

end Step

/-! ## The references from a token on -/

/-- The references of the tokens after `before`, in order. -/
def referencesFrom (frames : Frames) (before : Option Token) (tokens : List Token) :
    List TableReference :=
  (findingsFrom frames before tokens).filterMap Finding.reference?

theorem extractReferences_eq (statement : List Token) :
    extractReferences statement = referencesFrom .top none statement := rfl

section References

variable {frames : Frames} {before : Option Token} {rest : List Token}

@[simp] theorem referencesFrom_nil : referencesFrom frames before [] = [] := rfl

theorem referencesFrom_cons {token : Token} :
    referencesFrom frames before (token :: rest) =
      ((walkToken frames before token rest).2.bind Finding.reference?).toList ++
        referencesFrom (walkToken frames before token rest).1 (some token) rest := by
  simp only [referencesFrom, findingsFrom]
  cases (walkToken frames before token rest).2 with
  | none => rfl
  | some finding => cases hreference : finding.reference? <;> simp [hreference]

theorem referencesFrom_cons_none {token : Token} {next : Frames}
    (h : walkToken frames before token rest = (next, none)) :
    referencesFrom frames before (token :: rest) = referencesFrom next (some token) rest := by
  rw [referencesFrom_cons, h]
  rfl

theorem referencesFrom_cons_some {token : Token} {next : Frames} {finding : Finding}
    (h : walkToken frames before token rest = (next, some finding)) :
    referencesFrom frames before (token :: rest) =
      finding.reference?.toList ++ referencesFrom next (some token) rest := by
  rw [referencesFrom_cons, h]
  rfl

theorem referencesFrom_openParen :
    referencesFrom frames before (.openParen :: rest) =
      referencesFrom (frames.push (opensQuery before rest.head?)) (some .openParen) rest :=
  referencesFrom_cons_none (walkToken_openParen ..)

theorem referencesFrom_closeParen :
    referencesFrom frames before (.closeParen :: rest) =
      referencesFrom frames.pop (some .closeParen) rest :=
  referencesFrom_cons_none (walkToken_closeParen ..)

theorem referencesFrom_inert {token : Token} (hstructural : token.isStructural = false)
    (hkeyword : ∀ keyword, token.keyword? = some keyword → keyword.isInert = true) :
    referencesFrom frames before (token :: rest) = referencesFrom frames (some token) rest :=
  referencesFrom_cons_none (walkToken_inert _ _ _ hstructural hkeyword)

theorem referencesFrom_endsFrom {token : Token} {keyword : Keyword}
    (hkeyword : token.keyword? = some keyword) (hends : keyword.endsFrom = true) :
    referencesFrom frames before (token :: rest) =
      referencesFrom (frames.setInFrom false) (some token) rest :=
  referencesFrom_cons_none (walkToken_endsFrom _ _ _ hkeyword hends)

/-- A comma outside an open `FROM` clause. -/
theorem referencesFrom_comma_closed
    (hclosed : (frames.current.query && frames.current.inFrom) = false) :
    referencesFrom frames before (.comma :: rest) = referencesFrom frames (some .comma) rest :=
  referencesFrom_cons_none (by rw [walkToken_comma, hclosed]; rfl)

/-- A comma of an open `FROM` clause. -/
theorem referencesFrom_comma_open
    (hopen : (frames.current.query && frames.current.inFrom) = true) :
    referencesFrom frames before (.comma :: rest) =
      (tableFactor rest).reference?.toList ++ referencesFrom frames (some .comma) rest := by
  have hstep : walkToken frames before .comma rest =
      (frames, some (.factor (tableFactor rest))) := by
    rw [walkToken_comma, hopen]
    rfl
  rw [referencesFrom_cons_some hstep]
  rfl

theorem referencesFrom_opener {token : Token} (hquery : frames.current.query = true)
    (hkeyword : token.keyword? = some .JOIN ∨
      (token.keyword? = some .FROM ∧ before.any (·.isKeyword .DISTINCT) = false)) :
    referencesFrom frames before (token :: rest) =
      (tableFactor rest).reference?.toList ++
        referencesFrom (frames.setInFrom true) (some token) rest :=
  referencesFrom_cons_some (walkToken_opener _ _ _ hquery hkeyword)

/-- A `FROM` or `JOIN` outside a query. -/
theorem referencesFrom_outsideQuery {token : Token}
    (hkeyword : token.keyword? = some .FROM ∨ token.keyword? = some .JOIN)
    (hquery : frames.current.query = false) :
    referencesFrom frames before (token :: rest) = referencesFrom frames (some token) rest := by
  obtain ⟨word, hstep⟩ := walkToken_outsideQuery frames before rest hkeyword hquery
  rw [referencesFrom_cons_some hstep]
  rfl

/-- Outside a query a word refers to nothing and at most closes a `FROM` clause. -/
theorem exists_referencesFrom_outsideQuery {token : Token}
    (hstructural : token.isStructural = false) (hquery : frames.current.query = false) :
    ∃ inFrom, ∀ rest, referencesFrom frames before (token :: rest) =
      referencesFrom (frames.setInFrom inFrom) (some token) rest := by
  refine ⟨if token.endsFrom then false else frames.current.inFrom, ?_⟩
  intro rest
  obtain ⟨hnext, hfound⟩ := walkToken_word frames before rest hstructural
  rw [hquery, Bool.false_and, if_neg Bool.false_ne_true] at hnext hfound
  rw [referencesFrom_cons, hfound, hnext]
  cases token.endsFrom <;> rfl

/-- The `FROM` of `IS DISTINCT FROM`, in a query or not. -/
theorem referencesFrom_distinctFrom {token : Token} (hkeyword : token.keyword? = some .FROM)
    (hdistinct : before.any (·.isKeyword .DISTINCT) = true) :
    referencesFrom frames before (token :: rest) = referencesFrom frames (some token) rest := by
  cases hquery : frames.current.query with
  | true => exact referencesFrom_cons_none (walkToken_distinctFrom _ _ _ hkeyword hquery hdistinct)
  | false => exact referencesFrom_outsideQuery (.inl hkeyword) hquery

end References

end TableLineage.Sql
