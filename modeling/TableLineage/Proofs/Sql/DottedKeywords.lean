import TableLineage.Proofs.Sql.QuotedInPlace
import TableLineage.Proofs.Sql.Stretch

/-!
# Keywords as parts of dotted names

The reader takes any word after a period for a part of a name, but the walk goes by the spelling of
a word alone.  So a column such as `m.from` counts as a keyword where it is not quoted:

* `SELECT m.from FROM t` refers to a table `from`, which is what stands after the column;
* in `FROM a JOIN b ON a.k = b.order, c` the column closes the clause, and `c` is lost;
* in `m.lateral (SELECT x, y FROM d)` the argument list becomes a query;
* in `m.distinct FROM t` the clause is taken for the end of `IS DISTINCT FROM`.

`ChangesNothing` says for a word when none of this makes a difference, and `names_of_dotted_word`
proves that these are the only ways: quoting the word leaves the names as they are just if it
changes nothing.  Without quotes a word that closes a clause can only lose names, like `DISTINCT`
before `FROM`, and `FROM`, `JOIN` and `LATERAL` can only add some.  No word does both, so that a
lost name is never made up for by another one.
-/

namespace TableLineage.Sql

/-- Whether the walk reacts to a keyword, at its own token or at the next one. -/
def Keyword.isHeeded (keyword : Keyword) : Bool :=
  !keyword.isInert || keyword == LATERAL || keyword == DISTINCT

/-- The word at a position has no effect as a keyword on what is found. -/
structure ChangesNothing (tokens : List Token) (i : Nat) : Prop where
  /-- If it opens a factor, no table is named there. -/
  opener : isOpener tokens i = true → readAfter tokens i = none
  /-- If it opens or closes the `FROM` clause of a query, no table is named behind the next
  commas. -/
  clause : isQueryGroup tokens (enclosing? tokens i) = true →
    isFromOpen tokens (enclosing? tokens i) (i + 1) ≠ isFromOpen tokens (enclosing? tokens i) i →
      CommasReadNothing tokens (i + 1)
  /-- If it makes the parenthesis after it a query, nothing is found in there. -/
  group : tokens[i]?.any Token.introducesTable = true →
    tokens[i + 2]?.any Token.startsQuery = false →
      ∀ j, enclosing? tokens j = some (i + 1) → nameAt tokens j = none
  /-- If it hides a `FROM` after it, no table is named there, nor behind the next commas unless they
  separate tables anyway. -/
  hiddenFrom : tokens[i]?.any (·.isKeyword .DISTINCT) = true →
    tokens[i + 1]?.any (·.isKeyword .FROM) = true →
      isQueryGroup tokens (enclosing? tokens i) = true →
        readAfter tokens (i + 1) = none ∧
          (isFromOpen tokens (enclosing? tokens i) i = false → CommasReadNothing tokens (i + 2))

/-! ## One word -/

section Word

variable {tokens others : List Token} {i : Nat} {value : String} {mark : QuoteMark}

/-- A word that closes clauses does nothing else. -/
theorem effects_of_isClauseEnd (h : isClauseEnd tokens i = true) :
    isOpener tokens i = false ∧ tokens[i]?.any Token.introducesTable = false := by
  obtain ⟨token, htoken, hends⟩ := (Option.any_eq_true _ _).mp h
  obtain ⟨keyword, hkeyword, hkeywordEnds⟩ := (Option.any_eq_true _ _).mp hends
  rw [isOpener, htoken, Option.any_some, opensFactor_of_endsFrom _ hends, Bool.and_false]
  exact ⟨rfl, (isNeutral_of_endsFrom hkeyword hkeywordEnds).introduces⟩

/-- A parenthesis directly after a word opens a query by that word or by what stands in it. -/
theorem isQueryGroup_some_succ (tokens : List Token) (i : Nat) :
    isQueryGroup tokens (some (i + 1)) =
      (tokens[i]?.any Token.introducesTable || tokens[i + 2]?.any Token.startsQuery) :=
  opensQuery_eq _ _

namespace DifferInQuotes

variable (h : DifferInQuotes tokens others i (i + 1))
  (hquoted : others[i]? = some (.word value (some mark)))

include h hquoted

/-- Behind the quoted word the `FROM` clause is as before the other word. -/
theorem isFromOpen_quoted :
    isFromOpen others (enclosing? tokens i) (i + 1) =
      isFromOpen tokens (enclosing? tokens i) i := by
  apply isFromOpen_quotedStretch _ h
  intro j hj hj'
  obtain rfl : j = i := by omega
  exact ⟨value, mark, hquoted⟩

/-- A parenthesis directly after the quoted word opens a query only by what stands in it. -/
theorem isQueryGroup_quoted :
    isQueryGroup others (some (i + 1)) = tokens[i + 2]?.any Token.startsQuery := by
  rw [isQueryGroup_some_succ, hquoted, ← h.off (i + 2) (by omega)]
  rfl

/-- Words that close clauses can only take names away, all others can only add some. -/
theorem foundIn_or : FoundIn tokens others ∨ FoundIn others tokens := by
  have hstate := h.isFromOpen_quoted hquoted
  have hgroup := h.isQueryGroup_quoted hquoted
  have hgroup' := isQueryGroup_some_succ tokens i
  have hsucc : isFromOpen tokens (enclosing? tokens i) (i + 1) = _ := isFromOpen_succ _ i
  cases hend : isClauseEnd tokens i with
  | true =>
      -- the word closes the clause: it opens nothing, so the bare list finds no more
      obtain ⟨hopener, hintroduces⟩ := effects_of_isClauseEnd hend
      left
      apply h.foundIn
      · intro j hj hj'
        obtain rfl : j = i := by omega
        rw [nameAt_of_isWord (h.words j hj hj'), hopener]
        exact .inl rfl
      · intro _ hopen
        rw [hsucc, if_pos ⟨rfl, by simp [hend]⟩, hopener] at hopen
        cases hopen
      · rw [hgroup, hgroup', hintroduces, Bool.false_or]
        exact fun _ => id
  | false =>
      -- the word closes nothing: quoted, it neither names nor opens, so that list finds no more
      right
      apply h.symm.foundIn
      · intro j hj hj'
        obtain rfl : j = i := by omega
        exact .inl (nameAt_quoted hquoted)
      · intro _ hopen
        left
        rw [← h.same.enclosing?_eq, hstate] at hopen
        rw [← h.same.enclosing?_eq, hsucc, hopen, hend, Bool.or_false]
        split
        case isTrue hhere => exact hhere.2
        case isFalse => rfl
      · intro _ hquery
        rw [hgroup', ← hgroup, hquery, Bool.or_true]

/-- Both lists have the same names just if the unquoted word changes nothing. -/
theorem names_eq_iff_changesNothing
    (hdistinct : ¬(tokens[i]?.any (·.isKeyword .DISTINCT) = true ∧
      tokens[i + 1]?.any (·.isKeyword .FROM) = true)) :
    names tokens = names others ↔ ChangesNothing tokens i := by
  have hgroup := h.isQueryGroup_quoted hquoted
  have hgroup' := isQueryGroup_some_succ tokens i
  have hword := h.words i (Nat.le_refl i) (Nat.lt_succ_self i)
  rw [names_eq_iff_of_or h.length_eq (h.foundIn_or hquoted), h.forall_nameAt_eq_iff,
    h.isFromOpen_quoted hquoted]
  constructor
  · -- the word itself, the commas behind it and the group that may follow
    rintro ⟨hstretch, hcommas, hinside⟩
    refine ⟨?_, hcommas, ?_, fun hleft hright => absurd ⟨hleft, hright⟩ hdistinct⟩
    · have hname := hstretch i (Nat.le_refl i) (Nat.lt_succ_self i)
      rwa [nameAt_quoted hquoted, nameAt_eq_none_iff hword] at hname
    · intro hintroduces hopens j hj
      have hquery : isQueryGroup others (enclosing? others j) = false := by
        rw [← h.same.enclosing?_eq, hj, hgroup, hopens]
      rw [hinside (by simp [hgroup, hgroup', hintroduces, hopens]) j hj,
        nameAt_of_not_isQueryGroup hquery]
  · intro hnothing
    refine ⟨?_, hnothing.clause, ?_⟩
    · intro j hj hj'
      obtain rfl : j = i := by omega
      rw [nameAt_quoted hquoted, nameAt_eq_none_iff hword]
      exact hnothing.opener
    · intro hne j hj
      -- the groups only differ if the word introduces one that starts no query
      have hopens : tokens[i + 2]?.any Token.startsQuery = false := by
        by_contra hyes
        rw [Bool.not_eq_false] at hyes
        simp [hgroup, hgroup', hyes] at hne
      have hintroduces : tokens[i]?.any Token.introducesTable = true := by
        simpa [hgroup, hgroup', hopens] using hne
      have hquery : isQueryGroup others (enclosing? others j) = false := by
        rw [← h.same.enclosing?_eq, hj, hgroup, hopens]
      rw [hnothing.group hintroduces hopens j hj, nameAt_of_not_isQueryGroup hquery]

end DifferInQuotes

end Word

/-! ## `DISTINCT` before `FROM` -/

section HiddenFrom

variable {tokens others : List Token} {i : Nat} {value : String} {mark : QuoteMark}

theorem isOpener_of_keyword? {token : Token} {keyword : Keyword} (h : tokens[i]? = some token)
    (hkeyword : token.keyword? = some keyword) (hfrom : keyword ≠ .FROM) (hjoin : keyword ≠ .JOIN) :
    isOpener tokens i = false := by
  simp [isOpener, h, opensFactor, Token.isKeyword, hkeyword, hfrom, hjoin]

theorem isClauseEnd_of_keyword? {token : Token} {keyword : Keyword} (h : tokens[i]? = some token)
    (hkeyword : token.keyword? = some keyword) : isClauseEnd tokens i = keyword.endsFrom := by
  simp [isClauseEnd, h, Token.endsFrom, hkeyword]

/-- After `DISTINCT` a `FROM` does nothing. -/
theorem effects_of_hidden_from {distinctWord fromWord : Token}
    (hdistinct : tokens[i]? = some distinctWord)
    (hdistinctWord : distinctWord.keyword? = some .DISTINCT)
    (hfrom : tokens[i + 1]? = some fromWord) (hfromWord : fromWord.keyword? = some .FROM) :
    isOpener tokens (i + 1) = false ∧
      ∀ group, isFromOpen tokens group (i + 2) = isFromOpen tokens group i := by
  have hhidden : isOpener tokens (i + 1) = false := by
    simp [isOpener, tokenBefore?, hdistinct, hfrom, opensFactor, Token.isKeyword, hfromWord,
      hdistinctWord]
  refine ⟨hhidden, fun group => ?_⟩
  rw [isFromOpen_succ_eq_self hhidden (isClauseEnd_of_keyword? hfrom hfromWord),
    isFromOpen_succ_eq_self (isOpener_of_keyword? hdistinct hdistinctWord (by decide) (by decide))
      (isClauseEnd_of_keyword? hdistinct hdistinctWord)]

/-- After a quoted word a `FROM` opens a factor, if its group is a query. -/
theorem effects_of_shown_from {fromWord : Token}
    (hquoted : tokens[i]? = some (.word value (some mark)))
    (hfrom : tokens[i + 1]? = some fromWord) (hfromWord : fromWord.keyword? = some .FROM) :
    isOpener tokens (i + 1) = isQueryGroup tokens (enclosing? tokens (i + 1)) ∧
      isFromOpen tokens (enclosing? tokens (i + 1)) (i + 2) =
        (isQueryGroup tokens (enclosing? tokens (i + 1)) ||
          isFromOpen tokens (enclosing? tokens (i + 1)) i) := by
  have hopens : isOpener tokens (i + 1) = isQueryGroup tokens (enclosing? tokens (i + 1)) := by
    have hnone : (Token.word value (some mark)).keyword? = none := rfl
    rw [isOpener, tokenBefore?, hquoted, hfrom]
    simp [opensFactor, Token.isKeyword, hfromWord, hnone]
  refine ⟨hopens, ?_⟩
  rw [isFromOpen_succ, hopens, isClauseEnd_of_keyword? hfrom hfromWord,
    isFromOpen_succ_eq_self (effects_of_quoted hquoted).1 (effects_of_quoted hquoted).2]
  cases isQueryGroup tokens (enclosing? tokens (i + 1)) <;> simp [Keyword.endsFrom]

/-- Both lists have the same names just if the `FROM` that `DISTINCT` hides changes nothing. -/
theorem DifferInQuotes.names_eq_iff_hiddenFrom (h : DifferInQuotes tokens others i (i + 2))
    {distinctWord fromWord : Token} (hdistinct : tokens[i]? = some distinctWord)
    (hdistinctWord : distinctWord.keyword? = some .DISTINCT)
    (hquoted : others[i]? = some (.word value (some mark)))
    (hfrom : tokens[i + 1]? = some fromWord) (hfrom' : others[i + 1]? = some fromWord)
    (hfromWord : fromWord.keyword? = some .FROM) :
    names tokens = names others ↔ ChangesNothing tokens i := by
  have hword := h.words i (Nat.le_refl i) (by omega)
  have hword' := h.words (i + 1) (Nat.le_succ i) (by omega)
  have hwordFrom : others[i + 1]?.any Token.isWord = true := by rw [hfrom', ← hfrom, hword']
  -- bare, `DISTINCT` hides the `FROM` behind it; quoted, that `FROM` opens the clause
  have hopener : isOpener tokens i = false :=
    isOpener_of_keyword? hdistinct hdistinctWord (by decide) (by decide)
  obtain ⟨hhidden, hstate⟩ := effects_of_hidden_from hdistinct hdistinctWord hfrom hfromWord
  obtain ⟨hopens, hstate'⟩ := effects_of_shown_from hquoted hfrom' hfromWord
  have hquery := h.isQueryGroup_eq h.enclosing?_ne_stop
  rw [← h.same.enclosing?_eq, h.enclosing?_stretch (Nat.le_succ i) (Nat.le_succ (i + 1)),
    ← hquery] at hopens hstate'
  rw [← h.isFromOpen_eq hquery (.inl (Nat.le_refl i))] at hstate'
  have hafter : isQueryGroup tokens (some (i + 2)) = isQueryGroup others (some (i + 2)) := by
    rw [isQueryGroup_some_succ, isQueryGroup_some_succ, hfrom, hfrom', h.off (i + 1 + 2) (by omega)]
  -- the unquoted list finds nothing at the two words
  have hname : nameAt tokens i = none := by
    rw [nameAt_of_isWord hword, hopener, if_neg Bool.false_ne_true]
  have hname' : nameAt tokens (i + 1) = none := by
    rw [nameAt_of_isWord hword', hhidden, if_neg Bool.false_ne_true]
  have hnameFrom : nameAt others (i + 1) = none ↔
      (isQueryGroup tokens (enclosing? tokens i) = true → readAfter tokens (i + 1) = none) := by
    rw [nameAt_eq_none_iff hwordFrom, hopens, readAfter, readAfter, h.drop_eq (Nat.le_refl (i + 2))]
  have hstretch {p : Nat → Prop} :
      (∀ j, i ≤ j → j < i + 2 → p j) ↔ p i ∧ p (i + 1) := by
    constructor
    · exact fun hp => ⟨hp i (Nat.le_refl i) (by omega), hp (i + 1) (Nat.le_succ i) (by omega)⟩
    · rintro ⟨hfirst, hsecond⟩ j hj hj'
      obtain rfl | rfl : j = i ∨ j = i + 1 := by omega
      · exact hfirst
      · exact hsecond
  -- the clause is open in the quoted list wherever it is in the bare one
  have hpart : FoundIn tokens others := by
    apply h.foundIn (hstretch.mpr ⟨.inl hname, .inl hname'⟩) _ (by rw [hafter]; exact fun _ => id)
    intro hyes _
    rw [hstate', hyes, Bool.true_or]
    exact .inl rfl
  rw [names_eq_iff h.length_eq hpart, h.forall_nameAt_eq_iff, hstate, hstate', hstretch]
  rw [hname, hname', nameAt_quoted hquoted, eq_comm (a := none) (b := nameAt others _), hnameFrom]
  constructor
  · -- what the shown `FROM` adds: its own name and those behind the commas of its clause
    rintro ⟨⟨-, hread⟩, hcommas, -⟩
    refine ⟨by simp [hopener], ?_, ?_, ?_⟩
    · rw [isFromOpen_succ_eq_self hopener (isClauseEnd_of_keyword? hdistinct hdistinctWord)]
      exact fun _ hne => absurd rfl hne
    · intro hintroduces
      simp [hdistinct, Token.introducesTable, Token.isKeyword, hdistinctWord] at hintroduces
    · intro _ _ hyes
      exact ⟨hread hyes, fun hclosed => hcommas hyes (by simp [hyes, hclosed])⟩
  · intro hnothing
    have hhiddenFrom := hnothing.hiddenFrom
      (by simp [hdistinct, Token.isKeyword, hdistinctWord])
      (by simp [hfrom, Token.isKeyword, hfromWord])
    refine ⟨⟨rfl, fun hyes => (hhiddenFrom hyes).1⟩, ?_, fun hne => absurd hafter hne⟩
    intro hyes hne
    apply (hhiddenFrom hyes).2
    simpa [hyes] using hne

end HiddenFrom

/-! ## A word after a period -/

/-- Words that are no keyword the walk reacts to change nothing. -/
theorem changesNothing_of_not_isHeeded {tokens : List Token} {i : Nat} {token : Token}
    (htoken : tokens[i]? = some token)
    (h : ∀ keyword, token.keyword? = some keyword → keyword.isHeeded = false) :
    ChangesNothing tokens i := by
  -- the word is none of the keywords that the walk heeds
  have hnot (keyword : Keyword) (hheeded : keyword.isHeeded = true) :
      token.isKeyword keyword = false := by
    by_contra hyes
    rw [Bool.not_eq_false, Token.isKeyword_iff] at hyes
    rw [h keyword hyes] at hheeded
    cases hheeded
  obtain ⟨hopener, hend⟩ := effects_of_isInert htoken fun keyword hkeyword => by
    have hheeded := h keyword hkeyword
    rw [Keyword.isHeeded, Bool.or_eq_false_iff, Bool.or_eq_false_iff] at hheeded
    simpa using hheeded.1.1
  refine ⟨by simp [hopener], ?_, ?_, ?_⟩
  · rw [isFromOpen_succ_eq_self hopener hend]
    exact fun _ hne => absurd rfl hne
  · intro hintroduces
    simp [htoken, Token.introducesTable, hnot .FROM rfl, hnot .JOIN rfl, hnot .LATERAL rfl]
      at hintroduces
  · intro hdistinct
    simp [htoken, hnot .DISTINCT rfl] at hdistinct

/-- A word after a period and the same word in quotes differ in their quotes alone, if the word does
not hide a `FROM` after it. -/
theorem differInQuotes_dottedWord {value : String} {back : List Token}
    (h : ¬(Keyword.ofWord? value = some .DISTINCT ∧ back.head?.any (·.isKeyword .FROM) = true))
    (front : List Token) (mark : QuoteMark) :
    DifferInQuotes (front ++ .period :: .word value none :: back)
      (front ++ .period :: .word value (some mark) :: back)
      (front.length + 1) (front.length + 1 + 1) := by
  apply DifferInQuotes.ofAppend front back [.word value none] [.word value (some mark)] .period rfl
    rfl (by simp) (by simp [Token.isWord]) rfl
  intro follower hfollower
  rw [hfollower, Option.any_some, not_and'] at h
  cases hfrom : follower.isKeyword .FROM with
  | false => simp [opensFactor, hfrom]
  | true =>
      have hplain : (Token.word value none).isKeyword .DISTINCT = false := by
        simpa [Token.isKeyword, Token.keyword?] using h hfrom
      have hquoted : (Token.word value (some mark)).isKeyword .DISTINCT = false := rfl
      simp [opensFactor, hplain, hquoted]

/-- A `DISTINCT` after a period and before a `FROM`: taken together, the two words differ from
`"DISTINCT" FROM` in their quotes alone. -/
theorem differInQuotes_dottedDistinct (front back : List Token) (value fromText : String)
    (mark : QuoteMark) :
    DifferInQuotes (front ++ .period :: .word value none :: .word fromText none :: back)
      (front ++ .period :: .word value (some mark) :: .word fromText none :: back)
      (front.length + 1) (front.length + 1 + 2) :=
  DifferInQuotes.ofAppend front back [.word value none, .word fromText none]
    [.word value (some mark), .word fromText none] .period rfl rfl (by simp)
    (by simp [Token.isWord]) rfl (fun _ _ => rfl)

/-- **When a name part after a period counts as a keyword.**  For all tokens, quoting a word that
follows a period leaves the names of the statement as they are if and only if the word changes
nothing.  That is so for every word but the keywords that close a clause, `FROM`, `JOIN`, `LATERAL`
and `DISTINCT`. -/
theorem names_of_dotted_word (front back : List Token) (value : String) (mark : QuoteMark) :
    (names (front ++ .period :: .word value none :: back) =
        names (front ++ .period :: .word value (some mark) :: back) ↔
      ChangesNothing (front ++ .period :: .word value none :: back) (front.length + 1)) ∧
    ((∀ keyword, Keyword.ofWord? value = some keyword → keyword.isHeeded = false) →
      names (front ++ .period :: .word value none :: back) =
        names (front ++ .period :: .word value (some mark) :: back)) := by
  -- the word stands behind the period, and what follows it is the start of the rest
  have hword (quote : Option QuoteMark) :
      (front ++ .period :: .word value quote :: back)[front.length + 1]? =
        some (.word value quote) := by
    simp
  have hnextWord (quote : Option QuoteMark) :
      (front ++ .period :: .word value quote :: back)[front.length + 1 + 1]? = back.head? := by
    rw [List.getElem?_append_right (by omega), List.head?_eq_getElem?,
      show front.length + 1 + 1 - front.length = 2 by omega]
    rfl
  have hiff : names (front ++ .period :: .word value none :: back) =
        names (front ++ .period :: .word value (some mark) :: back) ↔
      ChangesNothing (front ++ .period :: .word value none :: back) (front.length + 1) := by
    by_cases hhides : Keyword.ofWord? value = some .DISTINCT ∧
        back.head?.any (·.isKeyword .FROM) = true
    · -- a `DISTINCT` before a `FROM` changes what that one does as well
      obtain ⟨hdistinct, hfrom⟩ := hhides
      obtain ⟨fromWord, hhead, hfromWord⟩ := (Option.any_eq_true _ _).mp hfrom
      obtain ⟨back, rfl⟩ := List.head?_eq_some_iff.mp hhead
      rw [Token.isKeyword_iff] at hfromWord
      obtain ⟨fromText, rfl, -⟩ := Token.exists_word_of_keyword? hfromWord
      have h := differInQuotes_dottedDistinct front back value fromText mark
      exact h.names_eq_iff_hiddenFrom (hword none) hdistinct (hword _) (hnextWord none)
        (hnextWord _) hfromWord
    · have h := differInQuotes_dottedWord hhides front mark
      apply h.names_eq_iff_changesNothing (hword _)
      rintro ⟨hdistinct, hfrom⟩
      apply hhides
      rw [← hnextWord none]
      exact ⟨by simpa [Token.isKeyword, Token.keyword?] using hdistinct, hfrom⟩
  exact ⟨hiff, fun hnot => hiff.mpr (changesNothing_of_not_isHeeded (hword none) hnot)⟩

end TableLineage.Sql
