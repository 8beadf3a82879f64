import TableLineage.Proofs.Sql.ParenGroups
import TableLineage.Sql.Cursor

/-!
# Moves of a cursor

A cursor leaves a group behind the parenthesis that closes it, which is the only one with balanced
tokens before it in the group, or at the end of the tokens if there is none (`LeavesGroup`).  Both
ways to skip a group count up to that parenthesis with `groupLength`, so one lemma serves them
(`leavesGroup_groupLength`).

Whatever a reader does with a cursor, it stands some tokens further on, at most all that are left,
and where it was if the answer is no (`Operation.exists_skip`).  So over any number of operations it
keeps its tokens, never goes back and never goes past the end (`isAhead_run`).
-/

namespace TableLineage.Sql

/-! ## Leaving a group -/

section

variable {tokens : List Token} {inside place position : Nat}

/-- The token at `place` closes the group whose first token inside is at `inside`. -/
structure Closes (tokens : List Token) (inside place : Nat) : Prop where
  inside_le : inside ≤ place
  closeParen : tokens[place]? = some .closeParen
  balanced : IsBalanced ((tokens.take place).drop inside)

/-- A position directly behind the one token that closes a group, or at the end of the tokens if
none does.  A group that would start past the end is left where it starts. -/
def LeavesGroup (tokens : List Token) (inside position : Nat) : Prop :=
  (∃ place, Closes tokens inside place ∧ (∀ other, Closes tokens inside other → other = place) ∧
    position = place + 1) ∨
  (∀ place, ¬ Closes tokens inside place) ∧ position = max inside tokens.length

/-- The tokens of a group are those up to the one that closes it. -/
theorem closes_iff :
    Closes tokens inside place ↔ ∃ body after, tokens.drop inside = body ++ .closeParen :: after ∧
      IsBalanced body ∧ place = inside + body.length := by
  constructor
  · rintro ⟨hle, hclose, hbalanced⟩
    -- the body is what stands up to the place, and the closer comes behind it
    obtain ⟨count, rfl⟩ := Nat.exists_eq_add_of_le hle
    obtain ⟨hlt, hplace⟩ := List.getElem?_eq_some_iff.mp hclose
    rw [List.drop_take, Nat.add_sub_cancel_left] at hbalanced
    refine ⟨(tokens.drop inside).take count, tokens.drop (inside + count + 1), ?_, hbalanced, ?_⟩
    · calc tokens.drop inside
          = (tokens.drop inside).take count ++ tokens.drop (inside + count) := by
            rw [← List.drop_drop, List.take_append_drop]
        _ = _ := by rw [List.drop_eq_getElem_cons hlt, hplace]
    · rw [List.length_take, List.length_drop]
      omega
  · rintro ⟨body, after, hsplit, hbalanced, rfl⟩
    refine ⟨Nat.le_add_right _ _, ?_, ?_⟩
    · rw [← List.getElem?_drop, hsplit]
      simp
    · rwa [List.drop_take, Nat.add_sub_cancel_left, hsplit, List.take_left]

/-- Counting the tokens of a group leads out of it. -/
theorem leavesGroup_groupLength (tokens : List Token) (inside : Nat) :
    LeavesGroup tokens inside (inside + groupLength 0 (tokens.drop inside)) := by
  rcases closesAtMost_or_exists 0 (tokens.drop inside) with
    hopen | ⟨body, after, hsplit, hopen, hcount⟩
  · refine .inr ⟨fun place hcloses => ?_, ?_⟩
    · obtain ⟨body, after, hsplit, hbody, -⟩ := closes_iff.mp hcloses
      -- up to the parenthesis one more group is closed than opened
      have hprefix := hopen (body ++ [.closeParen]) ⟨after, by simp [hsplit]⟩
      have hequal := hbody.count_eq
      have hopened : [Token.closeParen].count .openParen = 0 := by decide
      rw [List.count_append, List.count_append, hopened, List.count_singleton_self] at hprefix
      omega
    · rw [groupLength_eq_length hopen, List.length_drop]
      omega
  · have hbody : IsBalanced body := ⟨hopen, by simpa using hcount⟩
    refine .inl ⟨inside + body.length, closes_iff.mpr ⟨body, after, hsplit, hbody, rfl⟩, ?_, ?_⟩
    · intro other hother
      obtain ⟨body', after', hsplit', hbody', rfl⟩ := closes_iff.mp hother
      -- both bodies have the length that is counted
      have hlength := hbody.groupLength after
      rw [← hsplit, hsplit', hbody'.groupLength after'] at hlength
      omega
    · rw [hsplit, hbody.groupLength after, Nat.add_assoc]

end

namespace Cursor

/-! ## Operations -/

/-- What a reader can do with a cursor. -/
inductive Operation where
  | peek
  | advance
  | atKeyword (keyword : Keyword)
  | atKind (token : Token)
  | consumeKeyword (keyword : Keyword)
  | consumeKind (token : Token)
  | skipGroup
  | skipToClose

/-- What an operation answers. -/
inductive Answer where
  | token (found : Option Token)
  | truth (holds : Bool)
  | done

/-- Whether there was no token, or a condition did not hold. -/
def Answer.IsNo : Answer → Prop
  | token found => found = none
  | truth holds => holds = false
  | done => False

/-- The answer of an operation and the cursor after it. -/
def Operation.apply (cursor : Cursor) : Operation → Answer × Cursor
  | peek => (.token cursor.peek?, cursor)
  | advance => cursor.advance.map .token id
  | atKeyword keyword => (.truth (cursor.atKeyword keyword), cursor)
  | atKind token => (.truth (cursor.atKind token), cursor)
  | consumeKeyword keyword => (cursor.consumeKeyword keyword).map .truth id
  | consumeKind token => (cursor.consumeKind token).map .truth id
  | skipGroup => (.done, cursor.skipGroup)
  | skipToClose => (.done, cursor.skipToClose)

/-- The cursor after a number of operations. -/
def run (start : Cursor) (operations : List Operation) : Cursor :=
  operations.foldl (fun cursor operation => (operation.apply cursor).2) start

/-- A cursor has the tokens of another and stands no earlier, and behind the end only if that one
does. -/
structure IsAhead (start cursor : Cursor) : Prop where
  tokens_eq : cursor.tokens = start.tokens
  le_position : start.position ≤ cursor.position
  position_le : cursor.position ≤ max start.position start.tokens.length

/-- What one operation does to a cursor that came from another. -/
structure MovesAhead (start cursor : Cursor) (operation : Operation) : Prop where
  tokens_eq : (operation.apply cursor).2.tokens = start.tokens
  le_position : cursor.position ≤ (operation.apply cursor).2.position
  position_le : (operation.apply cursor).2.position ≤ max start.position start.tokens.length
  eq_of_isNo : (operation.apply cursor).1.IsNo → (operation.apply cursor).2 = cursor

/-- Both ways to skip a group lead out of it, and away from a parenthesis there is no group. -/
structure SkipsOneGroup (cursor : Cursor) : Prop where
  elsewhere : cursor.peek? ≠ some .openParen → cursor.skipGroup = cursor
  group : cursor.peek? = some .openParen →
    LeavesGroup cursor.tokens (cursor.position + 1) cursor.skipGroup.position
  inside : LeavesGroup cursor.tokens cursor.position cursor.skipToClose.position

section

variable {start cursor : Cursor} {token : Token}

theorem head?_rest (cursor : Cursor) : cursor.rest.head? = cursor.peek? := by
  rw [rest, peek?, List.head?_drop]

theorem rest_of_peek? (h : cursor.peek? = some token) :
    cursor.rest = token :: cursor.tokens.drop (cursor.position + 1) := by
  obtain ⟨hlt, hget⟩ := List.getElem?_eq_some_iff.mp h
  rw [rest, List.drop_eq_getElem_cons hlt, hget]

theorem skipsOneGroup (cursor : Cursor) : SkipsOneGroup cursor := by
  refine ⟨fun h => ?_, fun h => ?_, leavesGroup_groupLength cursor.tokens cursor.position⟩
  · rw [skipGroup, openingGroupLength_of_ne (by rwa [head?_rest])]
    rfl
  · have hposition : cursor.skipGroup.position =
        cursor.position + 1 + groupLength 0 (cursor.tokens.drop (cursor.position + 1)) := by
      show cursor.position + openingGroupLength cursor.rest = _
      rw [rest_of_peek? h, openingGroupLength]
      omega
    rw [hposition]
    exact leavesGroup_groupLength cursor.tokens (cursor.position + 1)

/-! ## Steps -/

theorem one_le_length_rest (h : cursor.peek? = some token) : 1 ≤ cursor.rest.length := by
  rw [rest_of_peek? h]
  exact Nat.succ_le_succ (Nat.zero_le _)

/-- A condition on the next token holds only if there is one. -/
theorem exists_skip_moveIf {condition : Token → Bool} :
    ∃ count, count ≤ cursor.rest.length ∧
      (cursor.moveIf (cursor.peek?.any condition)).2 = cursor.skip count ∧
      (cursor.peek?.any condition = false → count = 0) := by
  cases hpeek : cursor.peek? with
  | none => exact ⟨0, Nat.zero_le _, rfl, fun _ => rfl⟩
  | some token =>
      rw [Option.any_some]
      cases condition token with
      | false => exact ⟨0, Nat.zero_le _, rfl, fun _ => rfl⟩
      | true => exact ⟨1, one_le_length_rest hpeek, rfl, by simp⟩

/-- Every operation moves the cursor over some tokens of the rest, and over none if its answer is
no. -/
theorem Operation.exists_skip (operation : Operation) (cursor : Cursor) :
    ∃ count, count ≤ cursor.rest.length ∧ (operation.apply cursor).2 = cursor.skip count ∧
      ((operation.apply cursor).1.IsNo → count = 0) := by
  cases operation with
  | peek | atKeyword | atKind => exact ⟨0, Nat.zero_le _, rfl, fun _ => rfl⟩
  | advance =>
      rw [apply, Cursor.advance]
      cases hpeek : cursor.peek? with
      | none => exact ⟨0, Nat.zero_le _, rfl, fun _ => rfl⟩
      | some token => exact ⟨1, one_le_length_rest hpeek, rfl, fun hno => nomatch hno⟩
  | consumeKeyword => exact exists_skip_moveIf
  | consumeKind => exact exists_skip_moveIf
  | skipGroup => exact ⟨_, openingGroupLength_le_length cursor.rest, rfl, False.elim⟩
  | skipToClose => exact ⟨_, groupLength_le_length 0 cursor.rest, rfl, False.elim⟩

theorem movesAhead (h : IsAhead start cursor) (operation : Operation) :
    MovesAhead start cursor operation := by
  obtain ⟨count, hcount, hskip, hno⟩ := operation.exists_skip cursor
  have hle := h.position_le
  rw [rest, List.length_drop, h.tokens_eq] at hcount
  refine ⟨?_, ?_, ?_, fun hanswer => ?_⟩
  · rw [hskip]
    exact h.tokens_eq
  · rw [hskip]
    exact Nat.le_add_right _ _
  · rw [hskip]
    show cursor.position + count ≤ _
    omega
  · rw [hskip, hno hanswer]
    rfl

/-! ## Runs -/

theorem IsAhead.refl (start : Cursor) : IsAhead start start :=
  ⟨rfl, Nat.le_refl _, Nat.le_max_left _ _⟩

theorem IsAhead.apply (h : IsAhead start cursor) (operation : Operation) :
    IsAhead start (operation.apply cursor).2 := by
  have hmoves := movesAhead h operation
  exact ⟨hmoves.tokens_eq, Nat.le_trans h.le_position hmoves.le_position, hmoves.position_le⟩

theorem isAhead_run (start : Cursor) (operations : List Operation) :
    IsAhead start (start.run operations) := by
  have hfold : ∀ cursor, IsAhead start cursor → IsAhead start (cursor.run operations) := by
    induction operations with
    | nil => exact fun cursor h => h
    | cons operation operations ih => exact fun cursor h => ih _ (h.apply operation)
  exact hfold start (.refl start)

/-- **A cursor skips one group and only moves ahead.**  Skipping a group does nothing if none starts
at the cursor; else it ends directly behind the parenthesis that closes the group or, without one,
at the end, and so does skipping the rest of an open group.  After any operations from a start,
every further operation keeps the tokens, does not go back or past the end (or the start, if that
lies behind the end), and does nothing if its answer is no. -/
theorem cursor_skips_one_group (start : Cursor) :
    SkipsOneGroup start ∧
      ∀ operations operation, MovesAhead start (start.run operations) operation :=
  ⟨skipsOneGroup start, fun operations => movesAhead (isAhead_run start operations)⟩

/-- Of `(())(` the first four tokens are a group, and the last one starts a group that is not
closed. -/
theorem cursor_skips_nested_and_open_group :
    let tokens : List Token := [.openParen, .openParen, .closeParen, .closeParen, .openParen]
    (Cursor.mk tokens 0).skipGroup.position = 4 ∧ LeavesGroup tokens 1 4 ∧
      (Cursor.mk tokens 4).skipGroup.position = 5 ∧ LeavesGroup tokens 5 5 := by
  intro tokens
  have hnested := (cursor_skips_one_group (Cursor.mk tokens 0)).1.group rfl
  have hopen := (cursor_skips_one_group (Cursor.mk tokens 4)).1.group rfl
  exact ⟨rfl, hnested, rfl, hopen⟩

end

end Cursor

end TableLineage.Sql
