import Mathlib.Data.List.Nodup
import TableLineage.Proofs.Sql.OpenGroups
import TableLineage.Proofs.Sql.Walk

/-!
# What the levels of the walk mean

The references of a statement are described here by position, without a walk and for parentheses
that need not match.  The group that encloses a position is that of the last unmatched `(` before
it, or the top level (`enclosing?`).  In a query group `FROM` and `JOIN` are openers, and a comma is
live if the last opener or clause word before it in the same group is an opener.  The references are
what is read after the openers and live commas (`extractReferences_eq_readAfter`).

The invariant is on the whole stack of levels: at every position the levels belong to the unmatched
parentheses and the top level, innermost first, and the level of a group is open just if the last
relevant word of that group so far is an opener (`toList_framesAt`).  Words inside a nested group
belong to that group and leave the state of the outer levels alone, since no two levels have the
same group.
-/

namespace TableLineage.Sql

variable (tokens : List Token)

/-! ## The description by position -/

/-- The token directly before a position. -/
def tokenBefore? : Nat → Option Token
  | 0 => none
  | i + 1 => tokens[i]?

/-- Whether a group is a query: the top level is, and a parenthesis that opens one. -/
def isQueryGroup : Option Nat → Bool
  | none => true
  | some g => opensQuery (tokenBefore? tokens g) tokens[g + 1]?

/-- Whether a position holds an opener: a `JOIN` of a query group, or a `FROM` of one that does not
follow `DISTINCT`. -/
def isOpener (i : Nat) : Bool :=
  isQueryGroup tokens (enclosing? tokens i) &&
    tokens[i]?.any (opensFactor (tokenBefore? tokens i))

/-- Whether a position holds a word that ends `FROM` clauses. -/
def isClauseEnd (i : Nat) : Bool :=
  tokens[i]?.any Token.endsFrom

/-- Whether the last opener or clause end of a group before a position is an opener. -/
def isFromOpen (group : Option Nat) (i : Nat) : Bool :=
  (lastBelow? (fun j => decide (enclosing? tokens j = group) &&
    (isOpener tokens j || isClauseEnd tokens j)) i).any (isOpener tokens)

/-- Whether a position holds a comma that separates table factors. -/
def isLiveComma (i : Nat) : Bool :=
  decide (tokens[i]? = some .comma) && isQueryGroup tokens (enclosing? tokens i) &&
    isFromOpen tokens (enclosing? tokens i) i

/-- What is read after a position. -/
def readAfter (i : Nat) : Option TableReference :=
  (tableFactor (tokens.drop (i + 1))).reference?

/-! ## The walk by position -/

/-- The levels before the token at a position. -/
def framesAt : Nat → Frames
  | 0 => .top
  | i + 1 =>
    match tokens[i]? with
    | some token =>
      (walkToken (framesAt i) (tokenBefore? tokens i) token (tokens.drop (i + 1))).1
    | none => framesAt i

/-- The reference that the walk finds at a position. -/
def referenceAt (i : Nat) : Option TableReference :=
  tokens[i]?.bind fun token =>
    (walkToken (framesAt tokens i) (tokenBefore? tokens i) token
      (tokens.drop (i + 1))).2.bind Finding.reference?

variable {tokens}

theorem framesAt_succ {i : Nat} {token : Token} (h : tokens[i]? = some token) :
    framesAt tokens (i + 1) =
      (walkToken (framesAt tokens i) (tokenBefore? tokens i) token (tokens.drop (i + 1))).1 := by
  simp only [framesAt, h]

theorem referenceAt_eq {i : Nat} {token : Token} (h : tokens[i]? = some token) :
    referenceAt tokens i =
      (walkToken (framesAt tokens i) (tokenBefore? tokens i) token
        (tokens.drop (i + 1))).2.bind Finding.reference? := by
  simp only [referenceAt, h, Option.bind_some]

/-- The rest of the walk from a position on. -/
theorem referencesFrom_framesAt (i count : Nat) (h : i + count = tokens.length) :
    referencesFrom (framesAt tokens i) (tokenBefore? tokens i) (tokens.drop i) =
      (List.range' i count).filterMap (referenceAt tokens) := by
  induction count generalizing i with
  | zero =>
      have hnil : tokens.drop i = [] := List.drop_eq_nil_of_le (by omega)
      simp [hnil]
  | succ count ih =>
      have hi : i < tokens.length := by omega
      have htoken : tokens[i]? = some tokens[i] := List.getElem?_eq_getElem hi
      have hrest := ih (i + 1) (by omega)
      rw [framesAt_succ htoken, show tokenBefore? tokens (i + 1) = some tokens[i] from htoken]
        at hrest
      rw [List.drop_eq_getElem_cons hi, List.range'_succ, List.filterMap_cons,
        referenceAt_eq htoken, ← hrest, referencesFrom_cons]
      cases (walkToken (framesAt tokens i) (tokenBefore? tokens i) tokens[i]
        (tokens.drop (i + 1))).2.bind Finding.reference? <;> rfl

theorem extractReferences_eq_filterMap :
    extractReferences tokens = (List.range tokens.length).filterMap (referenceAt tokens) := by
  rw [extractReferences_eq, List.range_eq_range']
  exact referencesFrom_framesAt 0 tokens.length (Nat.zero_add _)

/-! ## What is open at a position -/

/-- The levels of a walk, innermost first. -/
def Frames.levels (frames : Frames) : List Frame :=
  frames.current :: frames.outer

variable (tokens) in
/-- The groups that are open before a position, innermost first, and the top level. -/
def groupsAt (i : Nat) : List (Option Nat) :=
  (openGroups tokens i).map some ++ [none]

variable (tokens) in
/-- What a group is and whether its `FROM` clause is open before a position. -/
def levelOf (i : Nat) (group : Option Nat) : Frame :=
  ⟨isQueryGroup tokens group, isFromOpen tokens group i⟩

variable (tokens) in
theorem groupsAt_eq_cons (i : Nat) :
    groupsAt tokens i = enclosing? tokens i :: (groupsAt tokens i).tail := by
  rw [enclosing?_eq]
  unfold groupsAt
  cases openGroups tokens i <;> rfl

variable (tokens) in
/-- No two levels have the same group. -/
theorem nodup_groupsAt (i : Nat) : (groupsAt tokens i).Nodup := by
  have hgroups : (openGroups tokens i).Nodup :=
    (pairwise_openGroups tokens i).imp fun hlt => Nat.ne_of_gt hlt
  refine List.nodup_append.mpr ⟨hgroups.map fun _ _ heq => Option.some.inj heq, by simp, ?_⟩
  intro group hgroup last hlast heq
  rw [List.mem_singleton] at hlast
  subst hlast heq
  simp at hgroup

/-- Only the group around a position changes there, and only by an opener or a clause end. -/
theorem isFromOpen_succ (group : Option Nat) (i : Nat) :
    isFromOpen tokens group (i + 1) =
      if enclosing? tokens i = group ∧ (isOpener tokens i || isClauseEnd tokens i) = true then
        isOpener tokens i
      else isFromOpen tokens group i := by
  simp only [isFromOpen, lastBelow?, Bool.and_eq_true, decide_eq_true_eq]
  split <;> rfl

theorem isFromOpen_succ_eq_self {i : Nat} (hopener : isOpener tokens i = false)
    (hend : isClauseEnd tokens i = false) (group : Option Nat) :
    isFromOpen tokens group (i + 1) = isFromOpen tokens group i := by
  rw [isFromOpen_succ, if_neg (by simp [hopener, hend])]

/-- Nothing has happened yet in a group that has only just been opened. -/
theorem isFromOpen_just_opened (i : Nat) : isFromOpen tokens (some i) (i + 1) = false := by
  have hnone : lastBelow? (fun j => decide (enclosing? tokens j = some i) &&
      (isOpener tokens j || isClauseEnd tokens j)) (i + 1) = none := by
    apply lastBelow?_eq_none_iff.mpr
    intro j hj
    have hne : enclosing? tokens j ≠ some i := by
      intro h
      have hlt := lt_of_enclosing?_eq_some h
      omega
    simp [hne]
  rw [isFromOpen, hnone]
  rfl

/-! ## The levels of the walk -/

theorem Token.keyword?_of_isStructural {token : Token} (h : token.isStructural = true) :
    token.keyword? = none := by
  cases token <;> first | rfl | cases h

theorem isOpener_of_structural {i : Nat} {token : Token} (h : tokens[i]? = some token)
    (hstructural : token.isStructural = true) : isOpener tokens i = false := by
  simp [isOpener, h, opensFactor, Token.isKeyword, Token.keyword?_of_isStructural hstructural]

theorem isClauseEnd_of_structural {i : Nat} {token : Token} (h : tokens[i]? = some token)
    (hstructural : token.isStructural = true) : isClauseEnd tokens i = false := by
  simp [isClauseEnd, h, Token.endsFrom, Token.keyword?_of_isStructural hstructural]

/-- A token that is no parenthesis leaves the open groups as they are. -/
theorem groupsAt_succ_eq_self {i : Nat} (hopen : tokens[i]? ≠ some .openParen)
    (hclose : tokens[i]? ≠ some .closeParen) : groupsAt tokens (i + 1) = groupsAt tokens i := by
  rw [groupsAt, groupsAt, openGroups_other hopen hclose]

theorem levelOf_succ_eq_self {i : Nat} (hopener : isOpener tokens i = false)
    (hend : isClauseEnd tokens i = false) : levelOf tokens (i + 1) = levelOf tokens i := by
  funext group
  rw [levelOf, levelOf, isFromOpen_succ_eq_self hopener hend]

theorem levelOf_succ_of_ne {i : Nat} {group : Option Nat} (h : enclosing? tokens i ≠ group) :
    levelOf tokens (i + 1) group = levelOf tokens i group := by
  rw [levelOf, levelOf, isFromOpen_succ, if_neg fun hhere => h hhere.1]

/-- The current level of the walk is that of the enclosing group. -/
theorem current_eq_levelOf {i : Nat}
    (h : (framesAt tokens i).levels = (groupsAt tokens i).map (levelOf tokens i)) :
    (framesAt tokens i).current = levelOf tokens i (enclosing? tokens i) := by
  rw [groupsAt_eq_cons] at h
  exact (List.cons.inj h).1

/-- A word changes the level of its own group only. -/
theorem levels_framesAt_word {i : Nat} {token : Token} (htoken : tokens[i]? = some token)
    (hstructural : token.isStructural = false)
    (ih : (framesAt tokens i).levels = (groupsAt tokens i).map (levelOf tokens i)) :
    (framesAt tokens (i + 1)).levels = (groupsAt tokens i).map (levelOf tokens (i + 1)) := by
  have hcurrent := current_eq_levelOf ih
  have hnodup := nodup_groupsAt tokens i
  rw [groupsAt_eq_cons, List.nodup_cons] at hnodup
  rw [groupsAt_eq_cons, List.map_cons] at ih ⊢
  -- the groups further out are not the one around `i`, and nothing happens in them
  have houter : (groupsAt tokens i).tail.map (levelOf tokens (i + 1)) =
      (framesAt tokens i).outer := by
    rw [(List.cons.inj ih).2]
    apply List.map_congr_left
    intro group hgroup
    apply levelOf_succ_of_ne
    intro heq
    exact hnodup.1 (heq ▸ hgroup)
  have hopener : isOpener tokens i =
      ((framesAt tokens i).current.query && opensFactor (tokenBefore? tokens i) token) := by
    rw [hcurrent, isOpener, htoken, Option.any_some, levelOf]
  have hend : isClauseEnd tokens i = token.endsFrom := by
    rw [isClauseEnd, htoken, Option.any_some]
  rw [houter, framesAt_succ htoken, (walkToken_word _ _ _ hstructural).1, ← hopener]
  cases hends : token.endsFrom with
  | true =>
      have hno : isOpener tokens i = false := by
        rw [hopener, opensFactor_of_endsFrom _ hends, Bool.and_false]
      rw [if_pos rfl, levelOf, isFromOpen_succ, if_pos ⟨rfl, by simp [hend, hends]⟩, hno]
      simp only [Frames.levels, Frames.setInFrom, hcurrent, levelOf]
  | false =>
      rw [if_neg Bool.false_ne_true]
      cases hopens : isOpener tokens i with
      | true =>
          rw [if_pos rfl, levelOf, isFromOpen_succ, if_pos ⟨rfl, by simp [hopens]⟩, hopens]
          simp only [Frames.levels, Frames.setInFrom, hcurrent, levelOf]
      | false =>
          rw [if_neg Bool.false_ne_true, levelOf_succ_eq_self hopens (hend.trans hends),
            ← hcurrent]
          rfl

/-- An opening parenthesis puts a new level on top. -/
theorem levels_framesAt_openParen {i : Nat} (htoken : tokens[i]? = some .openParen)
    (ih : (framesAt tokens i).levels = (groupsAt tokens i).map (levelOf tokens i)) :
    (framesAt tokens (i + 1)).levels = (groupsAt tokens (i + 1)).map (levelOf tokens (i + 1)) := by
  have hnew : levelOf tokens (i + 1) (some i) =
      ⟨opensQuery (tokenBefore? tokens i) (tokens.drop (i + 1)).head?, false⟩ := by
    rw [levelOf, isFromOpen_just_opened, List.head?_drop, isQueryGroup]
  have hsame : levelOf tokens (i + 1) = levelOf tokens i :=
    levelOf_succ_eq_self (isOpener_of_structural htoken rfl) (isClauseEnd_of_structural htoken rfl)
  have hgroups : groupsAt tokens (i + 1) = some i :: groupsAt tokens i := by
    rw [groupsAt, openGroups_openParen htoken]
    rfl
  calc (framesAt tokens (i + 1)).levels
      = ⟨opensQuery (tokenBefore? tokens i) (tokens.drop (i + 1)).head?, false⟩ ::
          (framesAt tokens i).levels := by
        rw [framesAt_succ htoken, walkToken_openParen]
        rfl
    _ = levelOf tokens (i + 1) (some i) :: (groupsAt tokens i).map (levelOf tokens (i + 1)) := by
        rw [hnew, ih, hsame]
    _ = (groupsAt tokens (i + 1)).map (levelOf tokens (i + 1)) := by
        rw [hgroups, List.map_cons]

/-- A closing parenthesis takes the innermost level away, if there is one besides the top. -/
theorem levels_framesAt_closeParen {i : Nat} (htoken : tokens[i]? = some .closeParen)
    (ih : (framesAt tokens i).levels = (groupsAt tokens i).map (levelOf tokens i)) :
    (framesAt tokens (i + 1)).levels = (groupsAt tokens (i + 1)).map (levelOf tokens (i + 1)) := by
  rw [groupsAt, openGroups_closeParen htoken,
    levelOf_succ_eq_self (isOpener_of_structural htoken rfl) (isClauseEnd_of_structural htoken rfl),
    framesAt_succ htoken, walkToken_closeParen]
  rw [groupsAt] at ih
  generalize framesAt tokens i = frames at ih ⊢
  obtain ⟨current, outer⟩ := frames
  -- on the top level a closing parenthesis closes nothing
  cases hgroups : openGroups tokens i with
  | nil =>
      rw [hgroups] at ih
      obtain rfl : outer = [] := (List.cons.inj ih).2
      exact ih
  | cons g groups =>
      rw [hgroups] at ih
      have houter : outer = (groups.map some ++ [none]).map (levelOf tokens i) :=
        (List.cons.inj ih).2
      cases outer with
      | nil => simp at houter
      | cons frame rest => exact houter

/-- At every position the levels are those of the open groups and the top level, innermost first. -/
theorem levels_framesAt (i : Nat) :
    (framesAt tokens i).levels = (groupsAt tokens i).map (levelOf tokens i) := by
  induction i with
  | zero => rfl
  | succ i ih =>
      cases htoken : tokens[i]? with
      | none =>
          have hopener : isOpener tokens i = false := by simp [isOpener, htoken]
          have hend : isClauseEnd tokens i = false := by simp [isClauseEnd, htoken]
          rw [groupsAt_succ_eq_self (by simp [htoken]) (by simp [htoken]),
            levelOf_succ_eq_self hopener hend, ← ih]
          simp only [framesAt, htoken]
      | some token =>
          cases token with
          | openParen => exact levels_framesAt_openParen htoken ih
          | closeParen => exact levels_framesAt_closeParen htoken ih
          | comma =>
              rw [groupsAt_succ_eq_self (by simp [htoken]) (by simp [htoken]),
                levelOf_succ_eq_self (isOpener_of_structural htoken rfl)
                  (isClauseEnd_of_structural htoken rfl), framesAt_succ htoken, ← ih]
              rfl
          | _ =>
              rw [groupsAt_succ_eq_self (by simp [htoken]) (by simp [htoken])]
              exact levels_framesAt_word htoken rfl ih

/-! ## What is read at a position -/

/-- A position is followed by a factor just if it holds an opener or a live comma. -/
theorem referenceAt_eq_readAfter (i : Nat) :
    referenceAt tokens i =
      if isOpener tokens i || isLiveComma tokens i then readAfter tokens i else none := by
  have hcurrent : (framesAt tokens i).current = levelOf tokens i (enclosing? tokens i) :=
    current_eq_levelOf (levels_framesAt i)
  cases htoken : tokens[i]? with
  | none => simp [referenceAt, isOpener, isLiveComma, htoken]
  | some token =>
      rw [referenceAt_eq htoken]
      cases hstructural : token.isStructural with
      | false =>
          -- a word reads a factor just if it is an opener, and it is no comma
          have hopener : isOpener tokens i = ((framesAt tokens i).current.query &&
              opensFactor (tokenBefore? tokens i) token) := by
            rw [hcurrent, isOpener, htoken, Option.any_some, levelOf]
          have hcomma : isLiveComma tokens i = false := by
            have hne : token ≠ .comma := by
              rintro rfl
              cases hstructural
            simp [isLiveComma, htoken, hne]
          rw [(walkToken_word _ _ _ hstructural).2, ← hopener, hcomma, Bool.or_false]
          rfl
      | true =>
          rw [isOpener_of_structural htoken hstructural, Bool.false_or]
          cases token with
          | openParen | closeParen => simp [isLiveComma, htoken, walkToken]
          | comma =>
              rw [walkToken_comma, hcurrent, isLiveComma, htoken, decide_eq_true rfl,
                Bool.true_and, levelOf]
              dsimp only
              split <;> rfl
          | _ => cases hstructural

/-- A reference is what is read after an opener or a live comma. -/
theorem mem_extractReferences_iff {reference : TableReference} :
    reference ∈ extractReferences tokens ↔
      ∃ i, (isOpener tokens i || isLiveComma tokens i) = true ∧
        readAfter tokens i = some reference := by
  rw [extractReferences_eq_filterMap, List.mem_filterMap]
  simp only [List.mem_range, referenceAt_eq_readAfter, Option.ite_none_right_eq_some]
  constructor
  · rintro ⟨i, -, hstart, hread⟩
    exact ⟨i, hstart, hread⟩
  · rintro ⟨i, hstart, hread⟩
    refine ⟨i, ?_, hstart, hread⟩
    by_contra hi
    have htoken : tokens[i]? = none := List.getElem?_eq_none (Nat.le_of_not_lt hi)
    simp [isOpener, isLiveComma, htoken] at hstart

/-- **The walk reads where the groups say.**  For every list of tokens, with matching parentheses or
not, the references of a statement are what is read after its openers and live commas, in order. -/
theorem extractReferences_eq_readAfter (tokens : List Token) :
    extractReferences tokens =
      ((List.range tokens.length).filter fun i =>
        isOpener tokens i || isLiveComma tokens i).filterMap (readAfter tokens) := by
  rw [extractReferences_eq_filterMap, List.filterMap_filter]
  congr 1
  funext i
  exact referenceAt_eq_readAfter i

end TableLineage.Sql
