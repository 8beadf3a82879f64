import TableLineage.Proofs.Sql.QuotedInPlace
import TableLineage.Proofs.Sql.Stretch

/-!
# Names between brackets that are tokens of their own

Where a dialect has no bracket quoting, `[my table]` arrives as two brackets with words between
them.  The reader takes the group for one quoted part, but the walk goes on through the words and
takes them for keywords, if they are spelled like some: `FROM [order], b` loses `b`, and
`FROM [x from a]` finds `a` besides `x from a`.

The comparison with one quoted word has two steps.  From the words to quoted words between the same
brackets nothing changes but what the words do as keywords (`DifferInQuotes`).  From there to the
one word nothing changes at all, since neither the brackets nor quoted words mean anything to the
walk and both forms are the same part to the reader (`names_quotedGroup`).  The reader must arrive
at the group, though: a bracket that is left open by a name before it would be closed by the bracket
of the group (`EndsOutsideBrackets`).
-/

namespace TableLineage.Sql

/-! ## Brackets that are left open -/

/-- Whether the tokens start with a bracket that is not closed. -/
def startsOpenBracket (tokens : List Token) : Bool :=
  tokens.head? == some .openBracket && !tokens.contains .closeBracket

/-- Whether a further part of a name, after the periods at the start of the tokens, has a bracket
that is not closed. -/
def hasOpenFurtherPart (tokens : List Token) : Bool :=
  match tokens with
  | .period :: after =>
    startsOpenBracket (afterPeriods after) ||
      ((namePart (afterPeriods after)).1.isSome &&
        hasOpenFurtherPart (namePart (afterPeriods after)).2)
  | _ => false
termination_by tokens.length
decreasing_by
  have h₁ := length_namePart_le (afterPeriods after)
  have h₂ := length_afterPeriods_le after
  simp only [List.length_cons]
  omega

/-- Whether the name at the start of the tokens has a part with a bracket that is not closed. -/
def hasOpenPart (tokens : List Token) : Bool :=
  startsOpenBracket tokens || ((namePart tokens).1.isSome && hasOpenFurtherPart (namePart tokens).2)

/-- Whether a table factor may follow a token. -/
def Token.mayPrecedeFactor (token : Token) : Bool :=
  token == .comma || token.isKeyword .FROM || token.isKeyword .JOIN

/-- No name that may be read in the tokens ends in a bracket that is not closed. -/
def EndsOutsideBrackets (tokens : List Token) : Prop :=
  ∀ token after, token :: after <:+ tokens → token.mayPrecedeFactor = true →
    hasOpenPart (factorStart after) = false

theorem hasOpenFurtherPart_period (after : List Token) :
    hasOpenFurtherPart (.period :: after) = hasOpenPart (afterPeriods after) := by
  rw [hasOpenFurtherPart, hasOpenPart]

theorem EndsOutsideBrackets.tail {token : Token} {tokens : List Token}
    (h : EndsOutsideBrackets (token :: tokens)) : EndsOutsideBrackets tokens :=
  fun next after hsuffix => h next after (hsuffix.trans (List.suffix_cons token tokens))

theorem EndsOutsideBrackets.head {token : Token} {tokens : List Token}
    (h : EndsOutsideBrackets (token :: tokens)) (htoken : token.mayPrecedeFactor = true) :
    hasOpenPart (factorStart tokens) = false :=
  h token tokens List.suffix_rfl htoken

/-! ## The group and the word as a part of a name -/

/-- A part that is closed in some tokens is read there, whatever follows them. -/
theorem namePart_append_of_closed {tokens : List Token} (hne : tokens ≠ [])
    (hclosed : startsOpenBracket tokens = false) (rest : List Token) :
    namePart (tokens ++ rest) = ((namePart tokens).1, (namePart tokens).2 ++ rest) := by
  obtain ⟨token, after, rfl⟩ := List.exists_cons_of_ne_nil hne
  cases token with
  | openBracket =>
      have hmem : Token.closeBracket ∈ after := by
        simpa [startsOpenBracket] using hclosed
      obtain ⟨inside, behind, rfl, hinside⟩ := List.eq_append_cons_of_mem hmem
      rw [List.cons_append, List.append_assoc, List.cons_append, namePart_bracket hinside,
        namePart_bracket hinside]
  | _ => rfl

section Group

variable (words : List String) (mark : QuoteMark) (back : List Token)

/-- The words as tokens, in quotes or not. -/
def wordTokens (quote : Option QuoteMark) : List Token :=
  words.map fun value => .word value quote

/-- The words between brackets. -/
def bracketed (quote : Option QuoteMark) : List Token :=
  .openBracket :: (wordTokens words quote ++ .closeBracket :: back)

/-- All the words as one quoted word. -/
def joined : List Token :=
  .word (" ".intercalate words) (some mark) :: back

variable {words}

theorem namePart_bracketed (hne : words ≠ []) (quote : Option QuoteMark) :
    namePart (bracketed words back quote) = (some ⟨" ".intercalate words, true⟩, back) := by
  have hinside : Token.closeBracket ∉ wordTokens words quote := by simp [wordTokens]
  have hwords : (wordTokens words quote).filterMap bracketWord? = words := by
    simp [wordTokens, List.filterMap_map, Function.comp_def, bracketWord?]
  rw [bracketed, namePart_bracket hinside, hwords, if_neg (by simpa [List.isEmpty_iff] using hne)]

/-- At the group and at the word, or behind them; `isOpen` tells of the tokens before the group that
they leave a bracket open. -/
def AtGroup (words : List String) (mark : QuoteMark) (back : List Token)
    (isOpen : List Token → Bool) (tokens others : List Token) : Prop :=
  (∃ front, isOpen front = false ∧ tokens = front ++ bracketed words back (some mark) ∧
    others = front ++ joined words mark back) ∨ tokens = others

variable {mark back}

theorem opensAlike_group (front : List Token) :
    OpensAlike (front ++ bracketed words back (some mark)) (front ++ joined words mark back) := by
  cases front <;> simp [OpensAlike, bracketed, joined]

/-- At the start of a part the reader takes the same one, and then both lists are alike again. -/
theorem AtGroup.namePart (hne : words ≠ []) {tokens others : List Token}
    (h : AtGroup words mark back hasOpenPart tokens others) :
    (namePart tokens).1.map (·.value) = (namePart others).1.map (·.value) ∧
      ((namePart tokens).1.isSome →
        AtGroup words mark back hasOpenFurtherPart (namePart tokens).2 (namePart others).2) ∧
      OpensAlike (namePart tokens).2 (namePart others).2 := by
  obtain ⟨front, hclosed, rfl, rfl⟩ | rfl := h
  · by_cases hfront : front = []
    · subst hfront
      rw [List.nil_append, List.nil_append, namePart_bracketed back hne]
      exact ⟨rfl, fun _ => .inr rfl, Iff.rfl⟩
    · rw [hasOpenPart, Bool.or_eq_false_iff] at hclosed
      obtain ⟨hstart, hbehind⟩ := hclosed
      rw [namePart_append_of_closed hfront hstart, namePart_append_of_closed hfront hstart]
      refine ⟨rfl, fun hpart => .inl ⟨_, ?_, rfl, rfl⟩, opensAlike_group _⟩
      simpa [hpart] using hbehind
  · exact ⟨rfl, fun _ => .inr rfl, Iff.rfl⟩

/-- The reader takes the group and the word for the same part. -/
theorem readsAlike_group (hne : words ≠ []) :
    ReadsAlike (AtGroup words mark back hasOpenPart)
      (AtGroup words mark back hasOpenFurtherPart) where
  value_eq h := (h.namePart hne).1
  opens_of_start h := (h.namePart hne).2.2
  behind_part h hpart := (h.namePart hne).2.1 hpart
  opens_of_behind h := by
    -- either the group is still ahead or the rests are the same
    obtain ⟨front, -, rfl, rfl⟩ | rfl := h
    · exact opensAlike_group front
    · exact Iff.rfl
  periods {tokens others} h := by
    obtain ⟨front, hclosed, rfl, rfl⟩ | rfl := h
    · by_cases hperiod : front.head? = some .period
      · obtain ⟨after, rfl⟩ := List.head?_eq_some_iff.mp hperiod
        -- the part behind the periods ends before the group
        rw [hasOpenFurtherPart_period] at hclosed
        exact .inl ⟨_, _, rfl, rfl, .inl ⟨afterPeriods after, hclosed,
          afterPeriods_append (by simp) after _, afterPeriods_append (by simp) after _⟩⟩
      · right
        cases front with
        | nil => simp [bracketed, joined]
        | cons token front => exact ⟨hperiod, hperiod⟩
    · by_cases hperiod : tokens.head? = some .period
      · obtain ⟨after, rfl⟩ := List.head?_eq_some_iff.mp hperiod
        exact .inl ⟨after, after, rfl, rfl, .inr rfl⟩
      · exact .inr ⟨hperiod, hperiod⟩

variable (mark back) in
/-- Where a name is read from before the group, the word gives the same name. -/
theorem canonical?_tableFactor_group (hne : words ≠ []) {front : List Token}
    (hclosed : hasOpenPart (factorStart front) = false) :
    (tableFactor (front ++ bracketed words back (some mark))).canonical? =
      (tableFactor (front ++ joined words mark back)).canonical? := by
  -- neither form starts with a parenthesis or `LATERAL`, so the factor starts in the front
  have hbracketed : factorStart (front ++ bracketed words back (some mark)) =
      factorStart front ++ bracketed words back (some mark) :=
    factorStart_append (by simp) rfl front _
  have hjoined : factorStart (front ++ joined words mark back) =
      factorStart front ++ joined words mark back :=
    factorStart_append (by simp) rfl front _
  rw [tableFactor_eq, tableFactor_eq, hbracketed, hjoined]
  apply (readsAlike_group hne).canonical?_namedFactor
  · exact .inl ⟨_, hclosed, rfl, rfl⟩
  · cases factorStart front <;> rfl

/-! ## The group and the word in a walk -/

/-- The walk passes the group and goes on as after the word. -/
theorem referencesFrom_group (frames : Frames) (before : Option Token) :
    referencesFrom frames before (bracketed words back (some mark)) =
      referencesFrom frames before (joined words mark back) := by
  have hplain : ∀ token ∈ wordTokens words (some mark) ++ [.closeBracket],
      token.isPlain = true := by
    intro token hmem
    simp only [wordTokens, List.mem_append, List.mem_map, List.mem_singleton] at hmem
    rcases hmem with ⟨value, -, rfl⟩ | rfl <;> rfl
  have hbracket : (Token.openBracket).isPlain = true := rfl
  have hword : (Token.word (" ".intercalate words) (some mark)).isPlain = true := rfl
  obtain ⟨last, hlast, hwalk⟩ := walks_of_isPlain frames (isNeutral_of_isPlain hbracket) hplain
  calc referencesFrom frames before (bracketed words back (some mark))
      = referencesFrom frames (some .openBracket)
          (wordTokens words (some mark) ++ [.closeBracket] ++ back) := by
        rw [bracketed, List.append_cons, referencesFrom_plain hbracket]
    _ = referencesFrom frames last back := hwalk back trivial
    _ = referencesFrom frames (some (.word (" ".intercalate words) (some mark))) back :=
        referencesFrom_of_isNeutral hlast (isNeutral_of_isPlain hword) back
    _ = referencesFrom frames before (joined words mark back) := by
        rw [joined, referencesFrom_plain hword]

variable (mark back) in
/-- A token before the group has the same effect as before the word. -/
theorem walkToken_group (hne : words ≠ []) {token : Token} {front : List Token}
    (hclosed : token.mayPrecedeFactor = true → hasOpenPart (factorStart front) = false)
    (frames : Frames) (before : Option Token) :
    (walkToken frames before token (front ++ bracketed words back (some mark))).1 =
        (walkToken frames before token (front ++ joined words mark back)).1 ∧
      ((walkToken frames before token (front ++ bracketed words back (some mark))).2.bind
          Finding.reference?).map (·.canonical) =
        ((walkToken frames before token (front ++ joined words mark back)).2.bind
          Finding.reference?).map (·.canonical) := by
  have hread (hprecedes : token.mayPrecedeFactor = true) :=
    canonical?_tableFactor_group mark back hne (hclosed hprecedes)
  cases hstructural : token.isStructural with
  | true =>
      cases token with
      | openParen =>
          -- an opening parenthesis looks at one token, which is the same or no keyword
          rw [walkToken_openParen, walkToken_openParen, opensQuery_eq, opensQuery_eq]
          cases front <;> exact ⟨rfl, rfl⟩
      | closeParen => exact ⟨rfl, rfl⟩
      | comma =>
          rw [walkToken_comma, walkToken_comma]
          refine ⟨rfl, ?_⟩
          dsimp only
          split
          case isTrue => exact hread rfl
          case isFalse => rfl
      | _ => cases hstructural
  | false =>
      -- a word changes the frames by itself; only an opener reads on
      obtain ⟨hnext, hfound⟩ := walkToken_word frames before
        (front ++ bracketed words back (some mark)) hstructural
      obtain ⟨hnext', hfound'⟩ := walkToken_word frames before
        (front ++ joined words mark back) hstructural
      rw [hnext, hnext', hfound, hfound']
      refine ⟨rfl, ?_⟩
      split
      case isTrue hopens =>
        rw [Bool.and_eq_true, opensFactor, Bool.or_eq_true, Bool.and_eq_true] at hopens
        apply hread
        rcases hopens.2 with hjoin | hfrom
        · simp [Token.mayPrecedeFactor, hjoin]
        · simp [Token.mayPrecedeFactor, hfrom.1]
      case isFalse => rfl

/-- The walk over the tokens before the group finds the same names, and goes on alike. -/
theorem canonical_referencesFrom_group (hne : words ≠ []) {front : List Token}
    (hfront : EndsOutsideBrackets front) (frames : Frames) (before : Option Token) :
    (referencesFrom frames before (front ++ bracketed words back (some mark))).map (·.canonical) =
      (referencesFrom frames before (front ++ joined words mark back)).map (·.canonical) := by
  induction front generalizing frames before with
  | nil => rw [List.nil_append, List.nil_append, referencesFrom_group]
  | cons token front ih =>
      obtain ⟨hnext, hfound⟩ := walkToken_group mark back hne hfront.head
        frames before
      rw [List.cons_append, List.cons_append, referencesFrom_cons, referencesFrom_cons]
      rw [List.map_append, List.map_append, hnext, ih hfront.tail]
      congr 1
      rw [← Option.toList_map, ← Option.toList_map, hfound]

/-- Between its brackets or as one word, a quoted name gives the same names. -/
theorem names_quotedGroup (hne : words ≠ []) {front : List Token}
    (hfront : EndsOutsideBrackets front) :
    names (front ++ bracketed words back (some mark)) = names (front ++ joined words mark back) :=
  canonical_referencesFrom_group hne hfront .top none

/-! ## What the words do as keywords -/

theorem differInQuotes_bracketed (hne : words ≠ []) (front : List Token) :
    DifferInQuotes (front ++ bracketed words back none) (front ++ bracketed words back (some mark))
      (front.length + 1) (front.length + 1 + words.length) := by
  have h := DifferInQuotes.ofAppend front (.closeBracket :: back) (wordTokens words none)
    (wordTokens words (some mark)) .openBracket rfl rfl
    (by simpa [wordTokens] using hne) (by simp [wordTokens, Token.isWord])
    (by simp [SameButQuotes, wordTokens, Token.bare])
    (by rintro _ ⟨⟩; rfl)
  rwa [wordTokens, List.length_map] at h

variable (back) in
/-- Between the brackets stand the words. -/
theorem getElem?_bracketed (front : List Token) (quote : Option QuoteMark) {i : Nat}
    (hi : front.length + 1 ≤ i) (hi' : i < front.length + 1 + words.length) :
    ∃ word ∈ words, (front ++ bracketed words back quote)[i]? = some (.word word quote) := by
  obtain ⟨k, rfl⟩ := Nat.exists_eq_add_of_le hi
  have hk : k < words.length := by omega
  refine ⟨words[k], List.getElem_mem hk, ?_⟩
  calc (front ++ bracketed words back quote)[front.length + 1 + k]?
      = (bracketed words back quote)[k + 1]? := by
        rw [Nat.add_assoc, Nat.add_comm 1, List.getElem?_append_right (Nat.le_add_right _ _),
          Nat.add_sub_cancel_left]
    _ = (wordTokens words quote)[k]? := by
        rw [bracketed, List.getElem?_cons_succ,
          List.getElem?_append_left (by simpa [wordTokens] using hk)]
    _ = some (.word words[k] quote) := by
        rw [wordTokens, List.getElem?_map, List.getElem?_eq_getElem hk, Option.map_some]

theorem getElem?_bracketed_end (front : List Token) (quote : Option QuoteMark) :
    (front ++ bracketed words back quote)[front.length + 1 + words.length]? =
      some .closeBracket := by
  rw [List.getElem?_append_right (by omega), bracketed,
    show front.length + 1 + words.length - front.length = words.length + 1 by omega,
    List.getElem?_cons_succ, List.getElem?_append_right (by simp [wordTokens])]
  simp [wordTokens]

end Group

section Stretch

variable (tokens : List Token) (start stop : Nat)

/-- From one position to before another no name is found. -/
def NamesNothing : Prop :=
  ∀ i, start ≤ i → i < stop → nameAt tokens i = none

/-- From one position to another the `FROM` clause of a query stays as it is, or no table is named
behind the next commas. -/
def KeepsCommas : Prop :=
  isQueryGroup tokens (enclosing? tokens start) = true →
    isFromOpen tokens (enclosing? tokens start) stop ≠
      isFromOpen tokens (enclosing? tokens start) start → CommasReadNothing tokens stop

/-- From one position to another an open `FROM` clause is closed. -/
def ClosesClause : Prop :=
  isFromOpen tokens (enclosing? tokens start) start = true ∧
    isFromOpen tokens (enclosing? tokens start) stop = false

end Stretch

section Keywords

variable {start stop : Nat} {tokens others : List Token}

namespace DifferInQuotes

variable (h : DifferInQuotes tokens others start stop)
  (hquoted : ∀ i, start ≤ i → i < stop → ∃ value mark, others[i]? = some (.word value (some mark)))
  (hstop : tokens[stop]? ≠ some .openParen)

include h hquoted hstop

/-- Both lists find the same just if the stretch finds nothing and keeps the commas after it. -/
theorem forall_nameAt_eq_iff_of_quotedStretch :
    (∀ i, nameAt tokens i = nameAt others i) ↔
      NamesNothing tokens start stop ∧ KeepsCommas tokens start stop := by
  rw [h.forall_nameAt_eq_iff, isFromOpen_quotedStretch hquoted h]
  constructor
  · rintro ⟨hstretch, hcommas, -⟩
    refine ⟨fun i hi hi' => ?_, hcommas⟩
    rw [hstretch i hi hi', nameAt_quotedStretch hquoted hi hi']
  · rintro ⟨hnames, hcommas⟩
    refine ⟨fun i hi hi' => ?_, hcommas, ?_⟩
    · rw [hnames i hi hi', nameAt_quotedStretch hquoted hi hi']
    · intro _ i hinside
      exact absurd (openParen_of_enclosing?_eq_some hinside) hstop

/-- One list finds all that the other one finds, unless the stretch finds names and, by closing the
clause, loses others. -/
theorem foundIn_or_of_quotedStretch
    (hone : NamesNothing tokens start stop ∨ KeepsCommas tokens start stop ∨
      ¬ClosesClause tokens start stop) :
    FoundIn tokens others ∨ FoundIn others tokens := by
  have hstate := isFromOpen_quotedStretch hquoted h
  have hstop' : others[stop]? ≠ some .openParen := by rwa [← h.off stop (by omega)]
  have hnone {i : Nat} (hi : start ≤ i) (hi' : i < stop) :
      nameAt others i = none ∨ nameAt others i = nameAt tokens i :=
    .inl (nameAt_quotedStretch hquoted hi hi')
  by_cases hcloses : ClosesClause tokens start stop
  · rcases hone with hnames | hcommas | hnot
    · -- the words name nothing: what is found in them bare is found in them quoted
      left
      refine h.foundIn (fun i hi hi' => .inl (hnames i hi hi')) ?_ fun hparen => absurd hparen hstop
      intro _ hopen
      rw [hcloses.2] at hopen
      cases hopen
    · -- the commas read nothing: an open clause behind the quoted words finds no more
      right
      refine h.symm.foundIn (fun i => hnone) ?_ fun hparen => absurd hparen hstop'
      intro hquery _
      rw [← h.same.enclosing?_eq, ← h.isQueryGroup_eq h.enclosing?_ne_stop] at hquery
      refine .inr (h.commasReadNothing (hcommas hquery ?_))
      rw [hcloses.1, hcloses.2]
      exact Bool.false_ne_true
    · exact absurd hcloses hnot
  · right
    refine h.symm.foundIn (fun i => hnone) ?_ fun hparen => absurd hparen hstop'
    intro _ hopen
    rw [← h.same.enclosing?_eq] at hopen ⊢
    rw [hstate] at hopen
    left
    -- otherwise the bare words would close the clause
    by_contra hclosed
    rw [Bool.not_eq_true] at hclosed
    exact hcloses ⟨hopen, hclosed⟩

end DifferInQuotes

/-- Words that the walk does not react to keep names and commas. -/
theorem namesNothing_and_keepsCommas (hle : start ≤ stop)
    (hwords : ∀ i, start ≤ i → i < stop → ∃ word, tokens[i]? = some (.word word none) ∧
      ∀ keyword, Keyword.ofWord? word = some keyword → keyword.isInert = true) :
    NamesNothing tokens start stop ∧ KeepsCommas tokens start stop := by
  constructor
  · intro i hi hi'
    obtain ⟨word, hword, hinert⟩ := hwords i hi hi'
    rw [nameAt_of_isWord (by rw [hword]; rfl), (effects_of_isInert hword hinert).1,
      if_neg Bool.false_ne_true]
  · intro _ hne
    refine absurd (isFromOpen_of_isIdle hle fun i hi hi' _ => ?_) hne
    obtain ⟨word, hword, hinert⟩ := hwords i hi hi'
    exact effects_of_isInert hword hinert

/-- **When a name between brackets is one quoted name.**  Take a group of brackets and words that no
name before it runs into.  Replacing it by one quoted word leaves the names of the statement as they
are, if no word of the group is a keyword that opens or closes a clause.  In general the names stay
if and only if no name is found in the group and it keeps the commas after it, unless it does
neither and closes the clause, where names that are found may make up for names that are lost. -/
theorem names_of_bracketed_name {words : List String} (front back : List Token) (mark : QuoteMark)
    (hne : words ≠ []) (hfront : EndsOutsideBrackets front) :
    let tokens := front ++ bracketed words back none
    let others := front ++ joined words mark back
    let start := front.length + 1
    let stop := front.length + 1 + words.length
    ((NamesNothing tokens start stop ∨ KeepsCommas tokens start stop ∨
        ¬ClosesClause tokens start stop) →
      (names tokens = names others ↔
        NamesNothing tokens start stop ∧ KeepsCommas tokens start stop)) ∧
    ((∀ word ∈ words, ∀ keyword, Keyword.ofWord? word = some keyword → keyword.isInert = true) →
      names tokens = names others) := by
  intro tokens others start stop
  have h : DifferInQuotes tokens (front ++ bracketed words back (some mark)) start stop :=
    differInQuotes_bracketed hne front
  -- the brackets are kept and the words in them are quoted; only that changes the names
  have hquoted : ∀ i, start ≤ i → i < stop → ∃ value mark',
      (front ++ bracketed words back (some mark))[i]? = some (.word value (some mark')) := by
    intro i hi hi'
    obtain ⟨word, -, hword⟩ := getElem?_bracketed back front (some mark) hi hi'
    exact ⟨word, mark, hword⟩
  have hstop : tokens[stop]? ≠ some .openParen := by
    rw [getElem?_bracketed_end front none]
    simp
  have hiff (hone : NamesNothing tokens start stop ∨ KeepsCommas tokens start stop ∨
      ¬ClosesClause tokens start stop) :
      names tokens = names others ↔
        NamesNothing tokens start stop ∧ KeepsCommas tokens start stop := by
    rw [← names_quotedGroup hne hfront, ← h.forall_nameAt_eq_iff_of_quotedStretch hquoted hstop]
    exact names_eq_iff_of_or h.length_eq (h.foundIn_or_of_quotedStretch hquoted hstop hone)
  refine ⟨hiff, fun hinert => ?_⟩
  -- an inert word names nothing and leaves the clause open
  have hboth : NamesNothing tokens start stop ∧ KeepsCommas tokens start stop := by
    refine namesNothing_and_keepsCommas h.le fun i hi hi' => ?_
    obtain ⟨word, hmem, hword⟩ := getElem?_bracketed back front none hi hi'
    exact ⟨word, hword, hinert word hmem⟩
  exact (hiff (.inl hboth.1)).mpr hboth

/-- `SELECT * FROM [db].`, before the last part of the name. -/
def beforeLastPart : List Token :=
  [.word "SELECT" none, .other, .word "FROM" none, .openBracket, .word "db" none, .closeBracket,
    .period]

/-- `[my table], b` continues the statement as `"my table", b` does. -/
theorem names_of_my_table :
    ["my", "table"] ≠ [] ∧ EndsOutsideBrackets beforeLastPart ∧
      names (beforeLastPart ++ bracketed ["my", "table"] [.comma, .word "b" none] none) =
        names (beforeLastPart ++
          joined ["my", "table"] .double [.comma, .word "b" none]) := by
  have hne : ["my", "table"] ≠ [] := by simp
  have hfront : EndsOutsideBrackets beforeLastPart := by
    intro token after hsuffix hprecedes
    -- the front has seven ends, of which only the `FROM` opens a factor
    simp only [beforeLastPart, List.suffix_cons_iff, List.cons.injEq, List.suffix_nil,
      reduceCtorEq, or_false] at hsuffix
    rcases hsuffix with
      ⟨rfl, rfl⟩ | ⟨rfl, rfl⟩ | ⟨rfl, rfl⟩ | ⟨rfl, rfl⟩ | ⟨rfl, rfl⟩ | ⟨rfl, rfl⟩ | ⟨rfl, rfl⟩
    case inr.inr.inl =>
      show (false || (true && hasOpenFurtherPart [.period])) = false
      rw [hasOpenFurtherPart_period]
      rfl
    all_goals exact absurd hprecedes (by decide)
  refine ⟨hne, hfront, (names_of_bracketed_name _ _ .double hne hfront).2 ?_⟩
  intro word hword keyword hkeyword
  have hno : ∀ word ∈ ["my", "table"], Keyword.ofWord? word = none := by decide
  rw [hno word hword] at hkeyword
  cases hkeyword

end Keywords

end TableLineage.Sql
