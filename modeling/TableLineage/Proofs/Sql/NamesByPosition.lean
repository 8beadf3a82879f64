import Mathlib.Data.Nat.Init
import TableLineage.Proofs.Sql.EnclosingGroup

/-!
# Names by position

The names of a statement are what is found at its positions, from left to right
(`names_eq_filterMap`).  So two statements of the same length are compared position by position.
Different finds may still make the same list, but not if one statement finds something only where
the other one finds the same (`names_eq_iff`).

Between two openers or clause ends nothing changes the state of a group (`isFromOpen_of_isIdle`), so
that all commas up to the next such word are live or none is.
-/

namespace TableLineage.Sql

/-! ## Names by position -/

section Names

variable (tokens : List Token)

/-- The name that the walk finds at a position. -/
def nameAt (i : Nat) : Option String :=
  if isOpener tokens i || isLiveComma tokens i then (readAfter tokens i).map (·.canonical) else none

/-- The names of a statement's references, by which they are matched. -/
def names : List String :=
  (extractReferences tokens).map (·.canonical)

variable {tokens} in
/-- A name is found only after a comma or a keyword. -/
theorem comma_or_keyword_of_found {i : Nat}
    (h : (isOpener tokens i || isLiveComma tokens i) = true) :
    tokens[i]? = some .comma ∨ (tokens[i]?.bind Token.keyword?).isSome := by
  rcases Bool.or_eq_true_iff.mp h with hopener | hcomma
  · right
    cases htoken : tokens[i]? with
    | none => simp [isOpener, htoken] at hopener
    | some token =>
        cases hkeyword : token.keyword? with
        | none => simp [isOpener, htoken, opensFactor, Token.isKeyword, hkeyword] at hopener
        | some keyword => simp [hkeyword]
  · simp only [isLiveComma, Bool.and_eq_true, decide_eq_true_eq] at hcomma
    exact .inl hcomma.1.1

variable {tokens} in
theorem nameAt_of_comma {i : Nat} (h : tokens[i]? = some .comma) :
    nameAt tokens i =
      if isQueryGroup tokens (enclosing? tokens i) &&
          isFromOpen tokens (enclosing? tokens i) i
        then (readAfter tokens i).map (·.canonical) else none := by
  have hlive : isLiveComma tokens i = (isQueryGroup tokens (enclosing? tokens i) &&
      isFromOpen tokens (enclosing? tokens i) i) := by
    rw [isLiveComma, h, decide_eq_true rfl, Bool.true_and]
  rw [nameAt, isOpener_of_structural h rfl, hlive, Bool.false_or]

variable {tokens} in
/-- Outside a query nothing is found. -/
theorem nameAt_of_not_isQueryGroup {i : Nat}
    (h : isQueryGroup tokens (enclosing? tokens i) = false) : nameAt tokens i = none := by
  simp [nameAt, isOpener, isLiveComma, h]

theorem names_eq_filterMap :
    names tokens = (List.range tokens.length).filterMap (nameAt tokens) := by
  rw [names, extractReferences_eq_filterMap, List.map_filterMap]
  congr 1
  funext i
  rw [referenceAt_eq_readAfter, nameAt]
  split <;> rfl

end Names

/-- One list of names is part of the other, position by position. -/
def FoundIn (tokens others : List Token) : Prop :=
  ∀ i, nameAt tokens i = none ∨ nameAt tokens i = nameAt others i

/-- A partial list is the whole list only if it lacks no entry. -/
theorem filterMap_eq_iff_of_part {α β : Type} {part whole : α → Option β} (entries : List α)
    (h : ∀ a, part a = none ∨ part a = whole a) :
    (entries.filterMap part).length ≤ (entries.filterMap whole).length ∧
      (entries.filterMap part = entries.filterMap whole ↔ ∀ a ∈ entries, part a = whole a) := by
  induction entries with
  | nil => simp
  | cons a entries ih =>
      obtain ⟨hlength, hiff⟩ := ih
      rw [List.forall_mem_cons, ← hiff, List.filterMap_cons, List.filterMap_cons]
      cases hwhole : whole a with
      | none =>
          have hpart : part a = none := by simpa [hwhole] using h a
          simp [hpart, hlength]
      | some b =>
          rcases h a with hpart | hpart
          · -- an entry is lost, and what follows cannot make up for it
            refine ⟨by simp [hpart]; omega, ?_⟩
            simp only [hpart, reduceCtorEq, false_and, iff_false]
            intro heq
            have := congrArg List.length heq
            simp only [List.length_cons] at this
            omega
          · simp [hpart, hwhole, hlength]

/-- If all names of one list are found in the other one too, the lists of names are equal only if
the same is found at every position. -/
theorem names_eq_iff {tokens others : List Token} (hlength : tokens.length = others.length)
    (h : FoundIn tokens others) :
    names tokens = names others ↔ ∀ i, nameAt tokens i = nameAt others i := by
  rw [names_eq_filterMap, names_eq_filterMap, hlength, (filterMap_eq_iff_of_part _ h).2]
  constructor
  · intro heq i
    by_cases hi : i < others.length
    · exact heq i (List.mem_range.mpr hi)
    · have hnone : tokens[i]? = none := List.getElem?_eq_none (by omega)
      have hnone' : others[i]? = none := List.getElem?_eq_none (by omega)
      simp [nameAt, isOpener, isLiveComma, hnone, hnone']
  · exact fun heq i _ => heq i

/-- It does not matter which of the lists is the part. -/
theorem names_eq_iff_of_or {tokens others : List Token} (hlength : tokens.length = others.length)
    (h : FoundIn tokens others ∨ FoundIn others tokens) :
    names tokens = names others ↔ ∀ i, nameAt tokens i = nameAt others i := by
  rcases h with hpart | hpart
  · exact names_eq_iff hlength hpart
  · rw [eq_comm, names_eq_iff hlength.symm hpart]
    exact forall_congr' fun i => eq_comm

/-! ## Commas of a list of tables -/

section Commas

variable (tokens : List Token)

/-- In a group no word opens or closes a `FROM` clause from one position to before another. -/
def IsIdle (group : Option Nat) (start stop : Nat) : Prop :=
  ∀ i, start ≤ i → i < stop → enclosing? tokens i = group →
    isOpener tokens i = false ∧ isClauseEnd tokens i = false

/-- A comma from a position on, in the same group and before the next word that opens or closes a
`FROM` clause there. -/
structure IsNextComma (start i : Nat) : Prop where
  comma : tokens[i]? = some .comma
  start_le : start ≤ i
  same_group : enclosing? tokens i = enclosing? tokens start
  idle : IsIdle tokens (enclosing? tokens start) start i

/-- Behind the next commas from a position on no table is named. -/
def CommasReadNothing (start : Nat) : Prop :=
  ∀ i, IsNextComma tokens start i → readAfter tokens i = none

variable {tokens}

/-- Where nothing happens the state of a group is what it was. -/
theorem isFromOpen_of_isIdle {group : Option Nat} {start i : Nat} (hi : start ≤ i)
    (h : IsIdle tokens group start i) :
    isFromOpen tokens group i = isFromOpen tokens group start := by
  induction i, hi using Nat.le_induction with
  | base => rfl
  | succ i hi ih =>
      have hbefore : IsIdle tokens group start i := fun k hk hki =>
        h k hk (Nat.lt_succ_of_lt hki)
      rw [isFromOpen_succ, if_neg, ih hbefore]
      rintro ⟨hgroup, hevent⟩
      obtain ⟨hopener, hend⟩ := h i hi (Nat.lt_succ_self i) hgroup
      simp [hopener, hend] at hevent

end Commas

/-! ## Words without an effect -/

section Effects

variable {tokens : List Token} {i : Nat} {value : String} {mark : QuoteMark}

/-- A word without an effect on the walk neither opens nor closes a `FROM` clause. -/
theorem effects_of_isInert {token : Token} (htoken : tokens[i]? = some token)
    (h : ∀ keyword, token.keyword? = some keyword → keyword.isInert = true) :
    isOpener tokens i = false ∧ isClauseEnd tokens i = false := by
  rw [isOpener, isClauseEnd, htoken, Option.any_some, Option.any_some]
  unfold opensFactor Token.endsFrom
  cases hkeyword : token.keyword? with
  | none => simp [Token.isKeyword, hkeyword]
  | some keyword =>
      have hinert := h keyword hkeyword
      simp only [Keyword.isInert, Bool.and_eq_true, Bool.not_eq_true', bne_iff_ne, ne_eq] at hinert
      simp [Token.isKeyword, hkeyword, hinert]

theorem effects_of_quoted (h : tokens[i]? = some (.word value (some mark))) :
    isOpener tokens i = false ∧ isClauseEnd tokens i = false :=
  effects_of_isInert h fun keyword hkeyword => by cases hkeyword

theorem nameAt_of_isWord (h : tokens[i]?.any Token.isWord = true) :
    nameAt tokens i =
      if isOpener tokens i then (readAfter tokens i).map (·.canonical) else none := by
  have hcomma : isLiveComma tokens i = false := by
    have hne : tokens[i]? ≠ some .comma := by
      intro heq
      rw [heq] at h
      cases h
    simp [isLiveComma, hne]
  rw [nameAt, hcomma, Bool.or_false]

theorem nameAt_eq_none_iff (h : tokens[i]?.any Token.isWord = true) :
    nameAt tokens i = none ↔ (isOpener tokens i = true → readAfter tokens i = none) := by
  rw [nameAt_of_isWord h]
  cases isOpener tokens i <;> simp

theorem nameAt_quoted (h : tokens[i]? = some (.word value (some mark))) :
    nameAt tokens i = none := by
  rw [nameAt_of_isWord (by rw [h]; rfl), (effects_of_quoted h).1, if_neg Bool.false_ne_true]

end Effects

end TableLineage.Sql
