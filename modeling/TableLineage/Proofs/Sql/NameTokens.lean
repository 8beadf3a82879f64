import TableLineage.Proofs.Sql.SelectGrammar

/-!
# Names in the grammar, as the reader and the walk see them

The reader takes a name of the grammar as a whole: it stops exactly where the name ends, provided no
period follows (`objectName?_append`).  The walk passes the same tokens without noticing them, since
all of them are plain (`isPlain_of_isName`).
-/

namespace TableLineage.Sql

/-! ## Plain tokens -/

namespace Token

theorem not_structural_of_isPlain {token : Token} (h : token.isPlain = true) :
    token.isStructural = false := by
  cases hstructural : token.isStructural with
  | false => rfl
  | true => simp [isPlain, hstructural] at h

theorem not_reserved_of_isPlain {token : Token} (h : token.isPlain = true) {keyword : Keyword}
    (hkeyword : token.keyword? = some keyword) : keyword.isReserved = false := by
  cases hreserved : keyword.isReserved with
  | false => rfl
  | true => simp [isPlain, hkeyword, hreserved] at h

theorem isKeyword_of_isPlain {token : Token} (h : token.isPlain = true) (keyword : Keyword)
    (hreserved : keyword.isReserved = true) : token.isKeyword keyword = false := by
  cases hkeyword : token.isKeyword keyword with
  | false => rfl
  | true =>
      have hnot := not_reserved_of_isPlain h (isKeyword_iff.mp hkeyword)
      rw [hreserved] at hnot
      cases hnot

/-- A word that may be a table's name is one that the reader takes for a name. -/
theorem startsName_of_isPlain {value : String} {quote : Option QuoteMark}
    (h : (word value quote).isPlain = true) : startsName (word value quote) = true := by
  cases quote with
  | some mark => rfl
  | none =>
      cases hkeyword : Keyword.ofWord? value with
      | none => simp only [startsName, hkeyword]
      | some keyword =>
          have hnot : keyword.isReserved = false := not_reserved_of_isPlain h hkeyword
          simp only [startsName, hkeyword]
          cases keyword <;> first | rfl | cases hnot

end Token

/-- Plain tokens do nothing. -/
theorem referencesFrom_plain {frames : Frames} {before : Option Token} {token : Token}
    {rest : List Token} (h : token.isPlain = true) :
    referencesFrom frames before (token :: rest) = referencesFrom frames (some token) rest :=
  referencesFrom_inert (Token.not_structural_of_isPlain h) fun _ hkeyword =>
    Keyword.isInert_of_not_reserved (Token.not_reserved_of_isPlain h hkeyword)

/-! ## The parts of a name -/

theorem isPlain_of_isNamePart {tokens : List Token} {part : NamePart}
    (h : IsNamePart tokens part) : ∀ token ∈ tokens, token.isPlain = true := by
  cases h with
  | word hplain => simpa using hplain
  | @bracketed inside hinside hwords =>
      intro token hmem
      rw [List.mem_cons, List.mem_append, List.mem_singleton] at hmem
      rcases hmem with rfl | hmem | rfl
      · rfl
      · exact (hinside token hmem).1
      · rfl

/-- What stands between brackets is one part, and the reader goes on behind them. -/
theorem namePart_bracket {inside : List Token} (h : Token.closeBracket ∉ inside)
    (rest : List Token) :
    namePart (.openBracket :: (inside ++ .closeBracket :: rest)) =
      (if (inside.filterMap bracketWord?).isEmpty then none
        else some ⟨" ".intercalate (inside.filterMap bracketWord?), true⟩, rest) := by
  have hstop : (inside ++ Token.closeBracket :: rest).takeWhile (· != Token.closeBracket) =
      inside := by
    rw [List.takeWhile_append_of_pos fun token hmem => by
      simpa using ne_of_mem_of_not_mem hmem h]
    simp
  have hafter : (inside ++ Token.closeBracket :: rest).drop (inside.length + 1) = rest := by simp
  rw [namePart]
  simp only [hstop, hafter]

/-- The reader takes a part as it is meant, whatever follows. -/
theorem namePart_append {tokens : List Token} {part : NamePart} (h : IsNamePart tokens part)
    (rest : List Token) : namePart (tokens ++ rest) = (some part, rest) := by
  cases h with
  | word hplain => rfl
  | @bracketed inside hinside hwords =>
      have hclose : Token.closeBracket ∉ inside := fun hmem => (hinside _ hmem).2 rfl
      have htext : Token.openBracket :: (inside ++ [.closeBracket]) ++ rest =
          .openBracket :: (inside ++ .closeBracket :: rest) := by simp
      rw [htext, namePart_bracket hclose, if_neg (by simpa [List.isEmpty_iff] using hwords)]

theorem IsNamePart.head_ne_period {tokens : List Token} {part : NamePart}
    (h : IsNamePart tokens part) (rest : List Token) :
    (tokens ++ rest).head? ≠ some .period := by
  cases h <;> simp

/-! ## Dotted names -/

theorem isPlain_of_isName {tokens : List Token} {parts : List NamePart}
    (h : IsName tokens parts) : ∀ token ∈ tokens, token.isPlain = true := by
  induction h with
  | last h => exact isPlain_of_isNamePart h
  | @dotted first rest part parts periods hfirst hrest ih =>
      intro token hmem
      rw [List.mem_append, List.mem_append, List.mem_cons, List.mem_replicate] at hmem
      rcases hmem with (hmem | rfl | ⟨-, rfl⟩) | hmem
      · exact isPlain_of_isNamePart hfirst token hmem
      · rfl
      · rfl
      · exact ih token hmem

theorem afterPeriods_replicate (periods : Nat) {tokens : List Token}
    (h : tokens.head? ≠ some .period) :
    afterPeriods (List.replicate periods .period ++ tokens) = tokens := by
  have hall : ∀ token ∈ List.replicate periods Token.period, (token == .period) = true := by
    intro token hmem
    rw [(List.mem_replicate.mp hmem).2]
    rfl
  rw [afterPeriods, List.dropWhile_append_of_pos hall]
  cases tokens with
  | nil => rfl
  | cons token rest =>
      have hne : (token == .period) = false := by simpa using h
      rw [List.dropWhile_cons, hne]
      rfl

theorem furtherParts_of_ne {tokens : List Token} (h : tokens.head? ≠ some .period) :
    furtherParts tokens = ([], tokens) := by
  unfold furtherParts
  split
  · simp at h
  · rfl

theorem furtherParts_period {tokens : List Token} {part : NamePart} {rest : List Token}
    (h : namePart (afterPeriods tokens) = (some part, rest)) :
    furtherParts (.period :: tokens) =
      (part :: (furtherParts rest).1, (furtherParts rest).2) := by
  rw [furtherParts]
  simp only [h]

theorem furtherParts_period_none {tokens : List Token}
    (h : (namePart (afterPeriods tokens)).1 = none) :
    furtherParts (.period :: tokens) = ([], (namePart (afterPeriods tokens)).2) := by
  rw [furtherParts]
  simp only [h]

/-- Induction along the further parts of a name: a period with a part after it, one with none, and
the end of the name. -/
theorem furtherParts_induction {motive : List Token → Prop}
    (part : ∀ (after : List Token) (part : NamePart),
      (namePart (afterPeriods after)).1 = some part →
        motive (namePart (afterPeriods after)).2 → motive (.period :: after))
    (noPart : ∀ after : List Token, (namePart (afterPeriods after)).1 = none →
      motive (.period :: after))
    (stop : ∀ tokens : List Token, tokens.head? ≠ some .period → motive tokens)
    (tokens : List Token) : motive tokens := by
  fun_induction furtherParts tokens
  case case1 after _ found hfound _ _ _ ih => exact part after found hfound ih
  case case2 after _ hnone => exact noPart after hnone
  case case3 tokens hne =>
    apply stop
    intro hhead
    obtain ⟨after, rfl⟩ := List.head?_eq_some_iff.mp hhead
    exact hne after rfl

/-- After its first part the reader takes a name to its end. -/
theorem exists_furtherParts {tokens : List Token} {parts : List NamePart}
    (h : IsName tokens parts) {rest : List Token} (hrest : rest.head? ≠ some .period) :
    ∃ first more after, parts = first :: more ∧
      namePart (tokens ++ rest) = (some first, after) ∧ furtherParts after = (more, rest) := by
  induction h with
  | @last tokens part h =>
      exact ⟨part, [], rest, rfl, namePart_append h rest, furtherParts_of_ne hrest⟩
  | @dotted first tail part parts periods hfirst htail ih =>
      obtain ⟨second, more, after, rfl, hnext, hmore⟩ := ih
      refine ⟨part, second :: more, .period :: (List.replicate periods .period ++ (tail ++ rest)),
        rfl, ?_, ?_⟩
      · rw [List.append_assoc, List.append_assoc, namePart_append hfirst]
        rfl
      · -- the next part starts with no period, so the periods end before it
        have hhead : (tail ++ rest).head? ≠ some .period := by
          cases htail with
          | last h => exact h.head_ne_period rest
          | dotted periods h _ =>
              rw [List.append_assoc, List.append_assoc]
              exact h.head_ne_period _
        rw [furtherParts_period (by rw [afterPeriods_replicate periods hhead, hnext]), hmore]

/-- The reader takes a name of the grammar as it is meant, if no period follows. -/
theorem objectName?_append {tokens : List Token} {parts : List NamePart}
    (h : IsName tokens parts) {rest : List Token} (hrest : rest.head? ≠ some .period) :
    objectName? (tokens ++ rest) = some (⟨parts⟩, rest) := by
  obtain ⟨first, more, after, rfl, hfirst, hmore⟩ := exists_furtherParts h hrest
  rw [objectName?, hfirst]
  simp only [Option.map_some, hmore]

/-! ## Names as factors -/

/-- A name starts with a token that the reader takes for the start of a factor. -/
theorem exists_startsName {tokens : List Token} {parts : List NamePart}
    (h : IsName tokens parts) :
    ∃ first rest, tokens = first :: rest ∧ startsName first = true ∧ first.isPlain = true := by
  have hplain := isPlain_of_isName h
  have hpart : ∃ first rest, tokens = first :: rest ∧ startsName first = true := by
    cases h with
    | last h =>
        cases h with
        | word hword => exact ⟨_, _, rfl, Token.startsName_of_isPlain hword⟩
        | bracketed => exact ⟨_, _, rfl, rfl⟩
    | dotted periods h _ =>
        cases h with
        | word hword => exact ⟨_, _, rfl, Token.startsName_of_isPlain hword⟩
        | bracketed => exact ⟨_, _, rfl, rfl⟩
  obtain ⟨first, rest, rfl, hstarts⟩ := hpart
  exact ⟨first, rest, rfl, hstarts, hplain first List.mem_cons_self⟩

/-- The reader enters no parenthesis and skips no word before a plain token. -/
theorem innerFactor_of_isPlain {token : Token} (rest : List Token) (h : token.isPlain = true) :
    innerFactor (token :: rest) = namedFactor (token :: rest) := by
  have hne : token ≠ .openParen := by
    rintro rfl
    cases h
  cases token <;> first | rfl | exact absurd rfl hne

theorem tableFactor_of_isPlain {token : Token} (rest : List Token) (h : token.isPlain = true) :
    tableFactor (token :: rest) = innerFactor (token :: rest) := by
  rw [tableFactor, Token.isKeyword_of_isPlain h .LATERAL rfl]
  rfl

/-- A name is read as a table, unless a parenthesis follows that makes it a function. -/
theorem namedFactor_of_isName {tokens : List Token} {parts : List NamePart}
    (h : IsName tokens parts) {rest : List Token} (hrest : EndsName rest) :
    namedFactor (tokens ++ rest) = .table ⟨parts⟩ := by
  obtain ⟨first, more, rfl, hstarts, -⟩ := exists_startsName h
  have hread := objectName?_append h hrest.1
  rw [List.cons_append] at hread ⊢
  simp only [namedFactor, List.head?_cons, Option.map_some, Option.getD_some, hstarts, if_true,
    hread]
  have hparen := hrest.2
  cases rest with
  | nil => rfl
  | cons token rest =>
      cases token <;> first | rfl | exact absurd rfl hparen

theorem namedFactor_of_function {tokens : List Token} {parts : List NamePart}
    (h : IsName tokens parts) (rest : List Token) :
    namedFactor (tokens ++ .openParen :: rest) = .function ⟨parts⟩ := by
  have hread : objectName? (tokens ++ .openParen :: rest) = some (⟨parts⟩, .openParen :: rest) :=
    objectName?_append h (by simp)
  obtain ⟨first, more, rfl, hstarts, -⟩ := exists_startsName h
  rw [List.cons_append] at hread ⊢
  simp only [namedFactor, List.head?_cons, Option.map_some, Option.getD_some, hstarts, if_true,
    hread]

end TableLineage.Sql
