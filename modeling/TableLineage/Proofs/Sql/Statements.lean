import TableLineage.Proofs.Sql.CteGrammar
import TableLineage.Proofs.Text.Search
import TableLineage.Sql.Catalog
import TableLineage.Sql.Scan

/-!
# Statements do not see each other

A semicolon cuts a token list in two, and everything that is read of it falls apart with it
(`statements_isolated`): the statements, their common table expressions and references, and what
those references mean.  So it does not matter what stands open before the semicolon, a group, a
`FROM` clause or the body of a definition; a reader that looks ahead stops at the end of its own
statement.

What a reference means is settled by the definitions of its own statement and by the catalog
(`resolve_eq_cte_iff`).
-/

namespace TableLineage.Sql

open Text (lowercase)

variable {tokens statement : List Token}

/-! ## Cutting at semicolons -/

theorem splitStatements_append (first second : List Token) :
    splitStatements (first ++ .semicolon :: second) =
      splitStatements first ++ splitStatements second := by
  simp only [splitStatements, Text.splitOnP_eq]
  rw [List.splitOnP_append_cons first second rfl, List.filter_append]

/-- The statements hold all tokens but the semicolons, in order. -/
theorem flatten_splitStatements (tokens : List Token) :
    (splitStatements tokens).flatten = tokens.filter (· != .semicolon) := by
  rw [splitStatements, List.flatten_filter_not_isEmpty, Text.flatten_splitOnP]
  rfl

theorem ne_nil_of_mem_splitStatements (h : statement ∈ splitStatements tokens) :
    statement ≠ [] := by
  rintro rfl
  simpa using (List.mem_filter.mp h).2

theorem semicolon_notMem_of_mem_splitStatements (h : statement ∈ splitStatements tokens) :
    .semicolon ∉ statement := by
  intro hmem
  have hfree := Text.not_of_mem_splitOnP (List.mem_filter.mp h).1 hmem
  exact absurd hfree (by decide)

theorem infix_of_mem_splitStatements (h : statement ∈ splitStatements tokens) :
    statement <:+: tokens :=
  Text.infix_of_mem_splitOnP (List.mem_filter.mp h).1

/-- A statement is not cut further. -/
theorem splitStatements_eq_singleton_iff :
    splitStatements tokens = [tokens] ↔ tokens ≠ [] ∧ .semicolon ∉ tokens := by
  constructor
  · intro h
    have hmem : tokens ∈ splitStatements tokens := h ▸ List.mem_singleton_self tokens
    exact ⟨ne_nil_of_mem_splitStatements hmem, semicolon_notMem_of_mem_splitStatements hmem⟩
  · rintro ⟨hne, hfree⟩
    have hwhole : ∀ token ∈ tokens, (token == Token.semicolon) = false := by
      intro token htoken
      rw [beq_eq_false_iff_ne]
      exact fun heq => hfree (heq ▸ htoken)
    rw [splitStatements, Text.splitOnP_eq, List.splitOnP_eq_singleton hwhole]
    simp [hne]

/-! ## What a reference means -/

/-- A reference means a common table expression exactly if it is one word and its own statement
defines that word. -/
theorem resolve_eq_cte_iff {catalog : ModelCatalog} {reference : TableReference} :
    resolve catalog (collectCtes statement) reference = .cte ↔
      reference.isQualified = false ∧
        ∃ name ∈ definedNames statement, lowercase reference.canonical = lowercase name := by
  have hcontains : (collectCtes statement).contains reference.canonical = true ↔
      ∃ name ∈ definedNames statement, lowercase reference.canonical = lowercase name := by
    rw [CteScope.contains, List.contains_iff_mem, collectCtes, CteScope.mem_ofNames]
  rw [← hcontains, resolve]
  cases reference.isQualified <;>
    cases (collectCtes statement).contains reference.canonical <;>
      cases catalog.lookup? reference.canonical <;> simp

/-! ## Scans -/

/-- The tokens that a scan of a text cuts into statements. -/
def scannedTokens (dialect : Dialect) (sql : String) : List Token :=
  (tokenize dialect (stripComments dialect.quoteRules sql.toList).text).tokens

/-- The scope and the references of each statement. -/
def scopesAndReferences (tokens : List Token) : List (CteScope × List TableReference) :=
  (splitStatements tokens).map fun statement =>
    (collectCtes statement, extractReferences statement)

/-- What the references of each statement mean. -/
def resolutions (catalog : ModelCatalog) (tokens : List Token) : List (List Resolution) :=
  (scopesAndReferences tokens).map fun (ctes, references) =>
    references.map (resolve catalog ctes)

theorem statements_scan (dialect : Dialect) (sql : String) :
    (scan dialect sql).statements.map (fun statement => (statement.ctes, statement.references)) =
      scopesAndReferences (scannedTokens dialect sql) :=
  List.map_map

theorem scopesAndReferences_append (first second : List Token) :
    scopesAndReferences (first ++ .semicolon :: second) =
      scopesAndReferences first ++ scopesAndReferences second := by
  rw [scopesAndReferences, splitStatements_append, List.map_append]
  rfl

theorem resolutions_append (catalog : ModelCatalog) (first second : List Token) :
    resolutions catalog (first ++ .semicolon :: second) =
      resolutions catalog first ++ resolutions catalog second := by
  rw [resolutions, scopesAndReferences_append, List.map_append]
  rfl

/-- The statements on both sides of a semicolon are cut off, read and resolved as if the other side
were not there. -/
theorem statements_isolated (first second : List Token) :
    splitStatements (first ++ .semicolon :: second) =
        splitStatements first ++ splitStatements second ∧
      (splitStatements first).flatten = first.filter (· != .semicolon) ∧
      (∀ statement ∈ splitStatements first, statement ≠ [] ∧ .semicolon ∉ statement) ∧
      (splitStatements first = [first] ↔ first ≠ [] ∧ .semicolon ∉ first) ∧
      (∀ dialect sql, scannedTokens dialect sql = first ++ .semicolon :: second →
        (scan dialect sql).statements.map (fun statement =>
          (statement.ctes, statement.references)) =
          scopesAndReferences first ++ scopesAndReferences second) ∧
      ∀ catalog,
        resolutions catalog (first ++ .semicolon :: second) =
            resolutions catalog first ++ resolutions catalog second ∧
          ∀ statement ∈ splitStatements second, statement <:+: second ∧
            ∀ reference, resolve catalog (collectCtes statement) reference = .cte ↔
              reference.isQualified = false ∧
                ∃ name ∈ definedNames statement, lowercase reference.canonical =
                  lowercase name := by
  refine ⟨splitStatements_append first second, flatten_splitStatements first, ?_,
    splitStatements_eq_singleton_iff, ?_, ?_⟩
  · intro statement hstatement
    exact ⟨ne_nil_of_mem_splitStatements hstatement,
      semicolon_notMem_of_mem_splitStatements hstatement⟩
  · intro dialect sql htokens
    rw [statements_scan, htokens, scopesAndReferences_append]
  · intro catalog
    refine ⟨resolutions_append catalog first second, ?_⟩
    intro statement hstatement
    exact ⟨infix_of_mem_splitStatements hstatement, fun reference => resolve_eq_cte_iff⟩

/-- A definition whose body is never closed, a semicolon, and a statement that reads a table of the
same name: it does not read the common table expression. -/
theorem statements_isolated_openBody :
    let first : List Token :=
      [.word "WITH" none, .word "x" none, .word "AS" none, .openParen, .word "SELECT" none, .other,
        .word "FROM" none, .word "a" none]
    let second : List Token := [.word "SELECT" none, .other, .word "FROM" none, .word "x" none]
    let sql := "WITH x AS (SELECT * FROM a; SELECT * FROM x"
    scannedTokens .generic sql = first ++ .semicolon :: second ∧
      first ∈ splitStatements first ∧ (first ≠ [] ∧ .semicolon ∉ first) ∧
      (scan .generic sql).statements.map (fun statement => (statement.ctes, statement.references)) =
        scopesAndReferences first ++ scopesAndReferences second ∧
      resolutions .empty (first ++ .semicolon :: second) = [[.external "a"], [.external "x"]] ∧
      second ∈ splitStatements second ∧ second <:+: second ∧
      resolve .empty (collectCtes second) ⟨[⟨"x", false⟩]⟩ ≠ .cte := by
  intro first second sql
  have htokens : scannedTokens .generic sql = first ++ .semicolon :: second := by decide +kernel
  have hfirst : first ∈ splitStatements first := by decide +kernel
  have hsecond : second ∈ splitStatements second := by decide +kernel
  have hmeanings : resolutions .empty first = [[.external "a"]] ∧
      resolutions .empty second = [[.external "x"]] := by decide +kernel
  obtain ⟨-, -, hstatement, -, hscan, hresolved⟩ := statements_isolated first second
  obtain ⟨hresolutions, hown⟩ := hresolved .empty
  obtain ⟨hinside, hcte⟩ := hown second hsecond
  refine ⟨htokens, hfirst, hstatement first hfirst, hscan .generic sql htokens, ?_, hsecond,
    hinside, ?_⟩
  · rw [hresolutions, hmeanings.1, hmeanings.2, List.singleton_append]
  · rw [ne_eq, hcte]
    rintro ⟨-, name, hname, -⟩
    have hnone : definedNames second = [] := by decide +kernel
    exact List.not_mem_nil (hnone ▸ hname)

end TableLineage.Sql
