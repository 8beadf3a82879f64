import TableLineage.Proofs.Sql.NamesByPosition
import TableLineage.Proofs.Sql.ReadsAlike

/-!
# Words that are quoted in place

A quoted word is no keyword.  Two lists are compared here that differ only in the quotes of words in
one stretch, so that all that the words of the stretch do as keywords can be told from positions.

The groups are the same in both lists, and so is all that happens outside the stretch, but for a
parenthesis directly after it, which may be a query in one list only.  In the group around the
stretch the state of the `FROM` clause may differ at its end, and goes on to differ until the next
opener or clause end (`DifferInQuotes.isFromOpen_or`).  Therefore a name can be lost or found at
three places: in the stretch, at the commas up to that word (`CommasReadNothing`), and in the group
directly after (`DifferInQuotes.forall_nameAt_eq_iff`).  `DifferInQuotes.foundIn` says when one list
finds nothing but what the other one finds too.
-/

namespace TableLineage.Sql

/-! ## Lists that differ in the quotes of a stretch -/

/-- The lists differ in the quotes of words from `start` to before `stop` and nowhere else. -/
structure DifferInQuotes (tokens others : List Token) (start stop : Nat) : Prop where
  le : start ≤ stop
  same : SameButQuotes tokens others
  off : ∀ i, ¬(start ≤ i ∧ i < stop) → tokens[i]? = others[i]?
  words : ∀ i, start ≤ i → i < stop → tokens[i]?.any Token.isWord = true
  /-- The stretch is not what makes a parenthesis before it a query. -/
  before : tokenBefore? tokens start ≠ some .openParen
  /-- Whether the token after the stretch opens a factor does not depend on the quotes. -/
  next : ∀ token, tokens[stop]? = some token →
    opensFactor (tokenBefore? tokens stop) token = opensFactor (tokenBefore? others stop) token
  /-- The names that are read across the stretch are the same. -/
  read : ∀ i < start, tokens[i]? = some .comma ∨ (tokens[i]?.bind Token.keyword?).isSome →
    (readAfter tokens i).map (·.canonical) = (readAfter others i).map (·.canonical)

theorem openGroups_bare (tokens : List Token) (i : Nat) :
    openGroups (tokens.map Token.bare) i = openGroups tokens i := by
  induction i with
  | zero => rfl
  | succ i ih =>
      simp only [openGroups, List.getElem?_map, ih]
      cases tokens[i]? with
      | none => rfl
      | some token => cases token <;> rfl

theorem SameButQuotes.length_eq {tokens others : List Token} (h : SameButQuotes tokens others) :
    tokens.length = others.length := by
  rw [← List.length_map Token.bare, h, List.length_map]

theorem SameButQuotes.enclosing?_eq {tokens others : List Token} (h : SameButQuotes tokens others) :
    enclosing? tokens = enclosing? others := by
  funext i
  rw [Sql.enclosing?_eq, Sql.enclosing?_eq, ← openGroups_bare tokens, h, openGroups_bare]

theorem SameButQuotes.getElem? {tokens others : List Token} (h : SameButQuotes tokens others)
    (i : Nat) : tokens[i]?.map Token.bare = others[i]?.map Token.bare := by
  rw [← List.getElem?_map, ← List.getElem?_map, h]

theorem SameButQuotes.isWord_eq {tokens others : List Token} (h : SameButQuotes tokens others)
    (i : Nat) : tokens[i]?.any Token.isWord = others[i]?.any Token.isWord := by
  have hbare (found : Option Token) :
      (found.map Token.bare).any Token.isWord = found.any Token.isWord := by
    rcases found with _ | _ | _ <;> rfl
  rw [← hbare, h.getElem?, hbare]

theorem SameButQuotes.getElem?_eq_iff {tokens others : List Token}
    (h : SameButQuotes tokens others) {mark : Token} (hmark : mark.isWord = false) (i : Nat) :
    tokens[i]? = some mark ↔ others[i]? = some mark := by
  have hbare (found : Option Token) :
      found.map Token.bare = some mark ↔ found = some mark := by
    have := Token.head?_bare hmark found.toList
    cases found with
    | none => simp
    | some token => simpa using this
  rw [← hbare, h.getElem?, hbare]

theorem tokenBefore?_append (front : List Token) {words : List Token} (hne : words ≠ [])
    (back : List Token) :
    tokenBefore? (front ++ (words ++ back)) (front.length + words.length) = words.getLast? := by
  obtain ⟨words, last, rfl⟩ := (List.eq_nil_or_concat words).resolve_left hne
  have hplace : front.length + (words.concat last).length = (front ++ words).length + 1 := by
    simp [Nat.add_assoc]
  have hlast : front ++ (words.concat last ++ back) = front ++ words ++ last :: back := by simp
  rw [hplace, hlast, tokenBefore?, List.getElem?_append_right (Nat.le_refl _)]
  simp

/-- Outside of a stretch nothing changes if the stretch keeps its length. -/
theorem getElem?_append_of_not_mem_stretch {front back words changed : List Token}
    (hlength : words.length = changed.length) {i : Nat}
    (hi : ¬(front.length ≤ i ∧ i < front.length + words.length)) :
    (front ++ (words ++ back))[i]? = (front ++ (changed ++ back))[i]? := by
  by_cases hlt : i < front.length
  · rw [List.getElem?_append_left hlt, List.getElem?_append_left hlt]
  · rw [List.getElem?_append_right (by omega), List.getElem?_append_right (by omega),
      List.getElem?_append_right (by omega), List.getElem?_append_right (by omega), hlength]

/-- What is read in front of a token is read across it alike, whatever the quotes behind it. -/
theorem canonical_readAfter_append {front rest others : List Token} {token : Token}
    (hstructural : token.isStructural = false) (hkeyword : token.keyword? = none)
    (h : SameButQuotes rest others) {i : Nat} (hi : i < front.length) :
    (readAfter (front ++ token :: rest) i).map (·.canonical) =
      (readAfter (front ++ token :: others) i).map (·.canonical) := by
  have hparen : token ≠ .openParen := by
    rintro rfl
    cases hstructural
  have hlateral : token.isKeyword .LATERAL = false := by simp [Token.isKeyword, hkeyword]
  rw [readAfter, readAfter, List.drop_append_of_le_length hi, List.drop_append_of_le_length hi]
  exact canonical?_tableFactor_of_sameButQuotes hparen hlateral _ h

namespace DifferInQuotes

variable {tokens others : List Token} {start stop : Nat}

theorem length_eq (h : DifferInQuotes tokens others start stop) :
    tokens.length = others.length :=
  h.same.length_eq

theorem tokenBefore?_eq (h : DifferInQuotes tokens others start stop) {i : Nat}
    (hi : i ≤ start ∨ stop < i) : tokenBefore? tokens i = tokenBefore? others i := by
  cases i with
  | zero => rfl
  | succ i => exact h.off i (by omega)

theorem symm (h : DifferInQuotes tokens others start stop) :
    DifferInQuotes others tokens start stop where
  le := h.le
  same := h.same.symm
  off i hi := (h.off i hi).symm
  words i hi hi' := by
    rw [← h.same.isWord_eq]
    exact h.words i hi hi'
  before := by
    rw [← h.tokenBefore?_eq (.inl (Nat.le_refl _))]
    exact h.before
  next token htoken := by
    rw [← h.off stop (by omega)] at htoken
    exact (h.next token htoken).symm
  read i hi hfound := by
    rw [← h.off i (by omega)] at hfound
    exact (h.read i hi hfound).symm

/-- The stretch lies in one group. -/
theorem enclosing?_stretch (h : DifferInQuotes tokens others start stop) {i : Nat}
    (hi : start ≤ i) (hi' : i ≤ stop) : enclosing? tokens i = enclosing? tokens start := by
  induction i, hi using Nat.le_induction with
  | base => rfl
  | succ i hi ih =>
      have hword := h.words i hi hi'
      have hopen : tokens[i]? ≠ some .openParen := by
        intro heq
        rw [heq] at hword
        cases hword
      have hclose : tokens[i]? ≠ some .closeParen := by
        intro heq
        rw [heq] at hword
        cases hword
      rw [← ih (by omega), enclosing?_eq, enclosing?_eq, openGroups_other hopen hclose]

theorem enclosing?_ne_stop (h : DifferInQuotes tokens others start stop) :
    enclosing? tokens start ≠ some stop := by
  intro heq
  have hlt := lt_of_enclosing?_eq_some heq
  have hle := h.le
  omega

/-- A group is a query in both lists or in none, unless it is opened directly after the stretch. -/
theorem isQueryGroup_eq (h : DifferInQuotes tokens others start stop) {i : Nat}
    (hi : enclosing? tokens i ≠ some stop) :
    isQueryGroup tokens (enclosing? tokens i) = isQueryGroup others (enclosing? tokens i) := by
  cases hgroup : enclosing? tokens i with
  | none => rfl
  | some g =>
      have hparen := openParen_of_enclosing?_eq_some hgroup
      have hstop : g ≠ stop := fun heq => hi (heq ▸ hgroup)
      have hoff : ¬(start ≤ g ∧ g < stop) := by
        rintro ⟨hstart, hlt⟩
        have hword := h.words g hstart hlt
        rw [hparen] at hword
        cases hword
      have hnext : g + 1 ≠ start := by
        rintro rfl
        exact h.before hparen
      rw [isQueryGroup, isQueryGroup, h.tokenBefore?_eq (by omega), h.off (g + 1) (by omega)]

/-- Off the stretch both lists open factors at the same words of a group. -/
theorem isOpener_eq (h : DifferInQuotes tokens others start stop) {i : Nat}
    (hi : ¬(start ≤ i ∧ i < stop))
    (hquery : isQueryGroup tokens (enclosing? tokens i) =
      isQueryGroup others (enclosing? tokens i)) :
    isOpener tokens i = isOpener others i := by
  have hopens : tokens[i]?.any (opensFactor (tokenBefore? tokens i)) =
      others[i]?.any (opensFactor (tokenBefore? others i)) := by
    rw [← h.off i hi]
    by_cases hstop : i = stop
    · subst hstop
      cases htoken : tokens[i]? with
      | none => rfl
      | some token => exact h.next token htoken
    · rw [h.tokenBefore?_eq (by omega)]
  rw [isOpener, isOpener, hopens, hquery, h.same.enclosing?_eq]

theorem isClauseEnd_eq (h : DifferInQuotes tokens others start stop) {i : Nat}
    (hi : ¬(start ≤ i ∧ i < stop)) : isClauseEnd tokens i = isClauseEnd others i := by
  rw [isClauseEnd, isClauseEnd, h.off i hi]

theorem isIdle (h : DifferInQuotes tokens others start stop) {i : Nat}
    (hidle : IsIdle tokens (enclosing? tokens start) stop i) :
    IsIdle others (enclosing? tokens start) stop i := by
  intro k hk hki hgroup
  rw [← h.same.enclosing?_eq] at hgroup
  have hquery := h.isQueryGroup_eq (i := k) (by rw [hgroup]; exact h.enclosing?_ne_stop)
  rw [← h.isOpener_eq (by omega) hquery, ← h.isClauseEnd_eq (by omega)]
  exact hidle k hk hki hgroup

/-- The state of a group is the same in both lists, before the stretch or if the group is another
one. -/
theorem isFromOpen_eq (h : DifferInQuotes tokens others start stop) {group : Option Nat} {i : Nat}
    (hquery : isQueryGroup tokens group = isQueryGroup others group)
    (hi : i ≤ start ∨ group ≠ enclosing? tokens start) :
    isFromOpen tokens group i = isFromOpen others group i := by
  induction i with
  | zero => rfl
  | succ i ih =>
      rw [isFromOpen_succ, isFromOpen_succ, ← h.same.enclosing?_eq,
        ih (hi.imp_left Nat.le_of_succ_le)]
      by_cases hgroup : enclosing? tokens i = group
      · have hoff : ¬(start ≤ i ∧ i < stop) := by
          rintro ⟨hstart, hstop⟩
          rcases hi with hi | hi
          · omega
          · exact hi (hgroup ▸ h.enclosing?_stretch hstart (Nat.le_of_lt hstop))
        rw [h.isOpener_eq hoff (by rw [hgroup, hquery]), h.isClauseEnd_eq hoff]
      · rw [if_neg fun hhere => hgroup hhere.1, if_neg fun hhere => hgroup hhere.1]

/-- After the stretch the state of its group is the same in both lists again, unless nothing has
happened in the group since. -/
theorem isFromOpen_or (h : DifferInQuotes tokens others start stop) {i : Nat} (hi : stop ≤ i) :
    isFromOpen tokens (enclosing? tokens start) i = isFromOpen others (enclosing? tokens start) i ∨
      IsIdle tokens (enclosing? tokens start) stop i := by
  induction i, hi using Nat.le_induction with
  | base => exact .inr fun k hk hki => absurd hki (by omega)
  | succ i hi ih =>
      by_cases hhere : enclosing? tokens i = enclosing? tokens start
      · -- a token of the group has the same effect in both lists; if it has one, the states meet
        have hquery := h.isQueryGroup_eq (i := i) (by rw [hhere]; exact h.enclosing?_ne_stop)
        have hopener := h.isOpener_eq (i := i) (by omega) hquery
        have hend := h.isClauseEnd_eq (i := i) (by omega)
        rw [isFromOpen_succ, isFromOpen_succ, ← h.same.enclosing?_eq, ← hopener, ← hend]
        by_cases hevent : (isOpener tokens i || isClauseEnd tokens i) = true
        · rw [if_pos ⟨hhere, hevent⟩, if_pos ⟨hhere, hevent⟩]
          exact .inl rfl
        · rw [if_neg fun h => hevent h.2, if_neg fun h => hevent h.2]
          refine ih.imp_right fun hidle k hk hki hgroup => ?_
          rcases Nat.lt_succ_iff_lt_or_eq.mp hki with hlt | rfl
          · exact hidle k hk hlt hgroup
          · simpa using hevent
      · -- elsewhere nothing happens to the clause
        rw [isFromOpen_succ, isFromOpen_succ, ← h.same.enclosing?_eq,
          if_neg fun h => hhere h.1, if_neg fun h => hhere h.1]
        refine ih.imp_right fun hidle k hk hki hgroup => ?_
        rcases Nat.lt_succ_iff_lt_or_eq.mp hki with hlt | rfl
        · exact hidle k hk hlt hgroup
        · exact absurd hgroup hhere

/-- Words in a row, one list with the quotes of the other changed, between the same tokens. -/
theorem ofAppend (front back words changed : List Token) (token : Token)
    (hstructural : token.isStructural = false) (hkeyword : token.keyword? = none)
    (hne : words ≠ []) (hwords : ∀ word ∈ words, word.isWord = true)
    (hsame : SameButQuotes words changed)
    (hnext : ∀ follower, back.head? = some follower →
      opensFactor words.getLast? follower = opensFactor changed.getLast? follower) :
    DifferInQuotes (front ++ token :: (words ++ back)) (front ++ token :: (changed ++ back))
      (front.length + 1) (front.length + 1 + words.length) := by
  have hlength : changed.length = words.length := hsame.length_eq.symm
  have hne' : changed ≠ [] := by
    rintro rfl
    exact hne (List.length_eq_zero_iff.mp hlength.symm)
  have hbehind : SameButQuotes (words ++ back) (changed ++ back) := .append hsame rfl
  -- the token is put to the front, so that the stretch starts where the front ends
  have hstart : (front ++ [token]).length = front.length + 1 := List.length_append
  rw [List.append_cons, List.append_cons front token (changed ++ back), ← hstart]
  exact {
    le := Nat.le_add_right _ _
    same := .append rfl hbehind
    off := fun i hi => getElem?_append_of_not_mem_stretch hlength.symm hi
    words := by
      intro i hi hi'
      have hinside : i - (front ++ [token]).length < words.length := by omega
      rw [List.getElem?_append_right hi, List.getElem?_append_left hinside,
        List.getElem?_eq_getElem hinside]
      exact hwords _ (List.getElem_mem hinside)
    before := by
      -- the token itself stands before the stretch, and it is no parenthesis
      have hbefore := tokenBefore?_append front (List.cons_ne_nil token []) (words ++ back)
      rw [← List.append_assoc, ← List.length_append] at hbefore
      rw [hbefore]
      rintro ⟨⟩
      cases hstructural
    next := by
      -- the last words of both stretches stand before the follower
      intro follower hfollower
      rw [tokenBefore?_append _ hne, ← hlength, tokenBefore?_append _ hne']
      apply hnext
      rw [List.getElem?_append_right (by omega), List.getElem?_append_right (by omega)] at hfollower
      rw [List.head?_eq_getElem?, ← hfollower]
      congr 1
      omega
    read := by
      -- the token is no comma and no keyword, so what is read starts in the front
      intro i hi hfound
      have hlt : i < front.length := by
        by_contra hge
        obtain rfl : i = front.length := by omega
        have htoken : (front ++ [token] ++ (words ++ back))[front.length]? = some token := by simp
        rcases hfound with hcomma | hsome
        · obtain rfl := Option.some.inj (htoken.symm.trans hcomma)
          cases hstructural
        · rw [htoken, Option.bind_some, hkeyword] at hsome
          cases hsome
      rw [List.append_assoc, List.append_assoc]
      exact canonical_readAfter_append hstructural hkeyword hbehind hlt }

/-! ### Quoted words in the whole stretch -/

section Quoted

variable (hquoted : ∀ i, start ≤ i → i < stop →
    ∃ value mark, others[i]? = some (.word value (some mark)))

include hquoted

/-- Behind quoted words the `FROM` clause is as before the stretch. -/
theorem isFromOpen_quotedStretch (h : DifferInQuotes tokens others start stop) :
    isFromOpen others (enclosing? tokens start) stop =
      isFromOpen tokens (enclosing? tokens start) start := by
  have hidle : IsIdle others (enclosing? tokens start) start stop := by
    intro i hi hi' _
    obtain ⟨value, mark, hword⟩ := hquoted i hi hi'
    exact effects_of_quoted hword
  rw [isFromOpen_of_isIdle h.le hidle]
  exact (h.isFromOpen_eq (h.isQueryGroup_eq h.enclosing?_ne_stop) (.inl (Nat.le_refl _))).symm

theorem nameAt_quotedStretch {i : Nat} (hi : start ≤ i) (hi' : i < stop) :
    nameAt others i = none := by
  obtain ⟨value, mark, hword⟩ := hquoted i hi hi'
  exact nameAt_quoted hword

end Quoted

/-! ### What is found -/

/-- After the stretch both lists go on alike. -/
theorem drop_eq (h : DifferInQuotes tokens others start stop) {i : Nat} (hi : stop ≤ i) :
    tokens.drop i = others.drop i := by
  apply List.ext_getElem?
  intro k
  rw [List.getElem?_drop, List.getElem?_drop]
  exact h.off _ (by omega)

/-- The same name is read in both lists wherever a name can be read, off the stretch. -/
theorem readAfter_eq (h : DifferInQuotes tokens others start stop) {i : Nat}
    (hi : ¬(start ≤ i ∧ i < stop))
    (hfound : tokens[i]? = some .comma ∨ (tokens[i]?.bind Token.keyword?).isSome) :
    (readAfter tokens i).map (·.canonical) = (readAfter others i).map (·.canonical) := by
  by_cases hstart : i < start
  · exact h.read i hstart hfound
  · rw [readAfter, readAfter, h.drop_eq (by omega)]

/-- Off the stretch both lists find the same at a position, if its group is a query in both or none
and, for a comma, if the `FROM` clause is open in both or none. -/
theorem nameAt_eq (h : DifferInQuotes tokens others start stop) {i : Nat}
    (hi : ¬(start ≤ i ∧ i < stop))
    (hquery : isQueryGroup tokens (enclosing? tokens i) =
      isQueryGroup others (enclosing? tokens i))
    (hopen : tokens[i]? = some .comma → isQueryGroup tokens (enclosing? tokens i) = true →
      isFromOpen tokens (enclosing? tokens i) i = isFromOpen others (enclosing? tokens i) i) :
    nameAt tokens i = nameAt others i := by
  have hopener := h.isOpener_eq hi hquery
  -- only a comma asks whether the clause is open
  have hcomma : isLiveComma tokens i = isLiveComma others i := by
    rw [isLiveComma, isLiveComma, ← h.off i hi, ← h.same.enclosing?_eq, ← hquery]
    cases hhere : decide (tokens[i]? = some .comma) with
    | false => rfl
    | true =>
        cases htrue : isQueryGroup tokens (enclosing? tokens i) with
        | false => rfl
        | true => rw [hopen (of_decide_eq_true hhere) htrue]
  rw [nameAt, nameAt, ← hopener, ← hcomma]
  split
  case isTrue hfound => exact h.readAfter_eq hi (comma_or_keyword_of_found hfound)
  case isFalse => rfl

/-- What is found at the next commas after the stretch depends on the state at its end. -/
theorem nameAt_of_isNextComma (h : DifferInQuotes tokens others start stop) {i : Nat}
    (hcomma : IsNextComma tokens stop i) :
    nameAt tokens i =
        (if isQueryGroup tokens (enclosing? tokens start) &&
            isFromOpen tokens (enclosing? tokens start) stop
          then (readAfter tokens i).map (·.canonical) else none) ∧
      nameAt others i =
        (if isQueryGroup tokens (enclosing? tokens start) &&
            isFromOpen others (enclosing? tokens start) stop
          then (readAfter tokens i).map (·.canonical) else none) := by
  obtain ⟨htoken, hi, hgroup, hidle⟩ := hcomma
  rw [h.enclosing?_stretch h.le (Nat.le_refl _)] at hgroup hidle
  have hquery := h.isQueryGroup_eq (i := i) (by rw [hgroup]; exact h.enclosing?_ne_stop)
  have hread := h.readAfter_eq (i := i) (by omega) (.inl htoken)
  have htoken' := (h.same.getElem?_eq_iff rfl i).mp htoken
  rw [nameAt_of_comma htoken, nameAt_of_comma htoken', ← h.same.enclosing?_eq, ← hquery, ← hread]
  -- nothing has happened to the clause since the end of the stretch
  rw [hgroup, isFromOpen_of_isIdle hi hidle, isFromOpen_of_isIdle hi (h.isIdle hidle)]
  exact ⟨rfl, rfl⟩

/-- Off the stretch both lists find the same, but for the next commas after it and the group that is
opened directly after it. -/
theorem nameAt_eq_or (h : DifferInQuotes tokens others start stop) {i : Nat}
    (hi : ¬(start ≤ i ∧ i < stop)) :
    nameAt tokens i = nameAt others i ∨
      (IsNextComma tokens stop i ∧ isQueryGroup tokens (enclosing? tokens start) = true ∧
        isFromOpen tokens (enclosing? tokens start) stop ≠
          isFromOpen others (enclosing? tokens start) stop) ∨
      (enclosing? tokens i = some stop ∧
        isQueryGroup tokens (some stop) ≠ isQueryGroup others (some stop)) := by
  by_cases hquery : isQueryGroup tokens (enclosing? tokens i) =
      isQueryGroup others (enclosing? tokens i)
  case neg =>
    -- only the group behind the stretch can become a query by it
    have hgroup : enclosing? tokens i = some stop := by
      by_contra hne
      exact hquery (h.isQueryGroup_eq hne)
    exact .inr (.inr ⟨hgroup, hgroup ▸ hquery⟩)
  by_cases hplace : i ≤ start ∨ enclosing? tokens i ≠ enclosing? tokens start
  · exact .inl (h.nameAt_eq hi hquery fun _ _ => h.isFromOpen_eq hquery hplace)
  rw [not_or, Decidable.not_not] at hplace
  obtain ⟨hlt, hgroup⟩ := hplace
  -- behind the stretch the states are the same, or nothing has happened yet
  rcases h.isFromOpen_or (i := i) (by omega) with hsame | hidle
  · exact .inl (h.nameAt_eq hi hquery fun _ _ => hgroup ▸ hsame)
  · by_cases hhere : tokens[i]? = some .comma ∧ isQueryGroup tokens (enclosing? tokens i) = true ∧
        isFromOpen tokens (enclosing? tokens start) stop ≠
          isFromOpen others (enclosing? tokens start) stop
    · obtain ⟨hcomma, htrue, hstates⟩ := hhere
      have hinside := h.enclosing?_stretch h.le (Nat.le_refl _)
      exact .inr (.inl ⟨⟨hcomma, by omega, hgroup.trans hinside.symm, hinside ▸ hidle⟩,
        hgroup ▸ htrue, hstates⟩)
    · refine .inl (h.nameAt_eq hi hquery fun hcomma htrue => ?_)
      rw [hgroup, isFromOpen_of_isIdle (by omega) hidle,
        isFromOpen_of_isIdle (by omega) (h.isIdle hidle)]
      by_contra hstates
      exact hhere ⟨hcomma, htrue, hstates⟩

/-- **Where quotes matter.**  Both lists find the same at every position just if they do so in the
stretch, if no table is named behind the next commas in case the state of the `FROM` clause differs
after it, and if they find the same in a group that is opened directly after it and is a query in
one of them only. -/
theorem forall_nameAt_eq_iff (h : DifferInQuotes tokens others start stop) :
    (∀ i, nameAt tokens i = nameAt others i) ↔
      (∀ i, start ≤ i → i < stop → nameAt tokens i = nameAt others i) ∧
        (isQueryGroup tokens (enclosing? tokens start) = true →
          isFromOpen tokens (enclosing? tokens start) stop ≠
            isFromOpen others (enclosing? tokens start) stop → CommasReadNothing tokens stop) ∧
        (isQueryGroup tokens (some stop) ≠ isQueryGroup others (some stop) →
          ∀ i, enclosing? tokens i = some stop → nameAt tokens i = nameAt others i) := by
  constructor
  · intro hsame
    refine ⟨fun i _ _ => hsame i, ?_, fun _ i _ => hsame i⟩
    intro hquery hstates i hcomma
    obtain ⟨hleft, hright⟩ := h.nameAt_of_isNextComma hcomma
    have hname := hsame i
    rw [hleft, hright, hquery, Bool.true_and, Bool.true_and] at hname
    apply (Option.map_eq_none_iff (f := TableReference.canonical)).mp
    -- the clause is open in one list only
    cases hopen : isFromOpen tokens (enclosing? tokens start) stop with
    | true =>
        have hclosed : isFromOpen others (enclosing? tokens start) stop = false := by
          simpa [hopen] using hstates
        simpa [hopen, hclosed] using hname
    | false =>
        have hopen' : isFromOpen others (enclosing? tokens start) stop = true := by
          simpa [hopen] using hstates
        simpa [hopen, hopen'] using hname.symm
  · rintro ⟨hstretch, hcommas, hgroup⟩ i
    by_cases hi : start ≤ i ∧ i < stop
    · exact hstretch i hi.1 hi.2
    obtain hsame | ⟨hcomma, hquery, hstates⟩ | ⟨hinside, hqueries⟩ := h.nameAt_eq_or hi
    · exact hsame
    · obtain ⟨hleft, hright⟩ := h.nameAt_of_isNextComma hcomma
      rw [hleft, hright, hcommas hquery hstates i hcomma]
      simp
    · exact hgroup hqueries i hinside

/-- The next commas after the stretch are the same in both lists, and so is what is read there. -/
theorem commasReadNothing (h : DifferInQuotes tokens others start stop)
    (hcommas : CommasReadNothing tokens stop) : CommasReadNothing others stop := by
  have hgroup := h.enclosing?_stretch h.le (Nat.le_refl _)
  rintro i ⟨hcomma, hi, hsame, hidle⟩
  rw [← h.same.enclosing?_eq] at hsame hidle
  have hidle' : IsIdle tokens (enclosing? tokens start) stop i := by
    have hback := h.symm.isIdle (i := i)
    rw [← h.same.enclosing?_eq, ← hgroup] at hback
    exact hgroup ▸ hback hidle
  rw [readAfter, ← h.drop_eq (by omega)]
  exact hcommas i ⟨(h.same.getElem?_eq_iff rfl i).mpr hcomma, hi, hsame, hgroup ▸ hidle'⟩

/-- Everything that the first list finds is found in the second one too, if that holds in the
stretch, if the second list has the `FROM` clause open after it or no table is named behind the next
commas, and if a group directly after it is a query in the second list too. -/
theorem foundIn (h : DifferInQuotes tokens others start stop)
    (hstretch : ∀ i, start ≤ i → i < stop →
      nameAt tokens i = none ∨ nameAt tokens i = nameAt others i)
    (hopen : isQueryGroup tokens (enclosing? tokens start) = true →
      isFromOpen tokens (enclosing? tokens start) stop = true →
        isFromOpen others (enclosing? tokens start) stop = true ∨ CommasReadNothing tokens stop)
    (hquery : tokens[stop]? = some .openParen →
      isQueryGroup tokens (some stop) = true → isQueryGroup others (some stop) = true) :
    FoundIn tokens others := by
  intro i
  by_cases hi : start ≤ i ∧ i < stop
  · exact hstretch i hi.1 hi.2
  obtain hsame | ⟨hcomma, htrue, hstates⟩ | ⟨hinside, hqueries⟩ := h.nameAt_eq_or hi
  · exact .inr hsame
  · left
    -- a comma of the clause behind the stretch, with nothing in between
    rw [(h.nameAt_of_isNextComma hcomma).1]
    cases hstate : isFromOpen tokens (enclosing? tokens start) stop with
    | false => rw [Bool.and_false, if_neg Bool.false_ne_true]
    | true =>
        rcases hopen htrue hstate with hopen' | hcommas
        · exact absurd (hstate.trans hopen'.symm) hstates
        · rw [hcommas i hcomma, Option.map_none, ite_self]
  · -- a place in the group behind the stretch, which is a query in one list only
    have hparen := openParen_of_enclosing?_eq_some hinside
    have hno : isQueryGroup tokens (some stop) = false := by
      by_contra hyes
      rw [Bool.not_eq_false] at hyes
      exact hqueries (hyes.trans (hquery hparen hyes).symm)
    exact .inl (nameAt_of_not_isQueryGroup (hinside ▸ hno))

end DifferInQuotes

end TableLineage.Sql
