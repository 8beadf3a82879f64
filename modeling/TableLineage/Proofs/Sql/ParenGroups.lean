import Mathlib.Data.List.Infix
import TableLineage.Sql.Cte

/-!
# Groups of parentheses

A token list closes no group that it does not open if none of its prefixes holds more closing than
opening parentheses (`StaysOpen`), and it is balanced if besides it holds as many of the one as of
the other.  So a closing parenthesis matches an opening one if what is between them is balanced, and
a group runs from an opening parenthesis to the matching one or, if there is none, to the end of the
tokens (`IsGroup`).

`groupLength` counts up to the matching parenthesis (`groupLength_append`), so `afterGroup` is what
is left after the group at the start (`afterGroup_append`, `exists_isGroup`).
-/

namespace TableLineage.Sql

/-! ## Balance -/

/-- Whether at most `depth` groups are closed that the tokens do not open themselves. -/
def ClosesAtMost (depth : Nat) (tokens : List Token) : Prop :=
  ∀ start, start <+: tokens → start.count .closeParen ≤ depth + start.count .openParen

/-- Whether every parenthesis that closes in the tokens was opened in them. -/
abbrev StaysOpen (tokens : List Token) : Prop :=
  ClosesAtMost 0 tokens

/-- Whether the parentheses in the tokens match each other. -/
structure IsBalanced (tokens : List Token) : Prop where
  staysOpen : StaysOpen tokens
  count_eq : tokens.count .closeParen = tokens.count .openParen

/-- From a parenthesis to the one that matches it. -/
def IsClosedGroup (group : List Token) : Prop :=
  ∃ body, group = .openParen :: (body ++ [.closeParen]) ∧ IsBalanced body

/-- A group, given the tokens after it: a closed one, or all tokens if no parenthesis matches the
first. -/
def IsGroup (group after : List Token) : Prop :=
  IsClosedGroup group ∨ after = [] ∧ ∃ body, group = .openParen :: body ∧ StaysOpen body

section

variable {depth : Nat} {token : Token} {tokens body after group : List Token}

theorem closesAtMost_nil : ClosesAtMost depth [] := by
  intro start hstart
  rw [List.prefix_nil.mp hstart]
  exact Nat.zero_le _

theorem closesAtMost_cons_iff :
    ClosesAtMost depth (token :: tokens) ↔ ∀ start, start <+: tokens →
      (token :: start).count .closeParen ≤ depth + (token :: start).count .openParen := by
  constructor
  · intro h start hstart
    exact h (token :: start) (List.cons_prefix_cons.mpr ⟨rfl, hstart⟩)
  · intro h start hstart
    rcases List.prefix_cons_iff.mp hstart with rfl | ⟨tail, rfl, htail⟩
    · exact Nat.zero_le _
    · exact h tail htail

theorem closesAtMost_openParen :
    ClosesAtMost depth (.openParen :: tokens) ↔ ClosesAtMost (depth + 1) tokens := by
  rw [closesAtMost_cons_iff]
  refine forall₂_congr fun start _ => ?_
  rw [List.count_cons_self, List.count_cons_of_ne (by decide)]
  omega

theorem closesAtMost_closeParen :
    ClosesAtMost (depth + 1) (.closeParen :: tokens) ↔ ClosesAtMost depth tokens := by
  rw [closesAtMost_cons_iff]
  refine forall₂_congr fun start _ => ?_
  rw [List.count_cons_self, List.count_cons_of_ne (by decide)]
  omega

theorem not_closesAtMost_closeParen : ¬ ClosesAtMost 0 (.closeParen :: tokens) := by
  intro h
  have hfirst := h [.closeParen] (List.cons_prefix_cons.mpr ⟨rfl, List.nil_prefix⟩)
  exact absurd hfirst (by decide)

theorem closesAtMost_other (hopen : token ≠ .openParen) (hclose : token ≠ .closeParen) :
    ClosesAtMost depth (token :: tokens) ↔ ClosesAtMost depth tokens := by
  rw [closesAtMost_cons_iff]
  refine forall₂_congr fun start _ => ?_
  rw [List.count_cons_of_ne hclose, List.count_cons_of_ne hopen]

theorem closesAtMost_append {first second : List Token} (hfirst : ClosesAtMost depth first)
    (hsecond : ClosesAtMost (depth + first.count .openParen - first.count .closeParen) second) :
    ClosesAtMost depth (first ++ second) := by
  intro start hstart
  rcases List.prefix_or_prefix_of_prefix hstart (List.prefix_append first second) with h | h
  · exact hfirst start h
  · obtain ⟨more, rfl⟩ := h
    have hmore := hsecond more ((List.prefix_append_right_inj first).mp hstart)
    have hall := hfirst first (List.prefix_refl first)
    rw [List.count_append, List.count_append]
    omega

theorem ClosesAtMost.mono {more : Nat} (h : ClosesAtMost depth tokens) (hle : depth ≤ more) :
    ClosesAtMost more tokens := by
  intro start hstart
  have hstart := h start hstart
  omega

/-! ## Balanced lists -/

theorem IsBalanced.append {first second : List Token} (hfirst : IsBalanced first)
    (hsecond : IsBalanced second) : IsBalanced (first ++ second) := by
  refine ⟨closesAtMost_append hfirst.staysOpen (hsecond.staysOpen.mono (Nat.zero_le _)), ?_⟩
  rw [List.count_append, List.count_append, hfirst.count_eq, hsecond.count_eq]

theorem isBalanced_of_not_paren (h : ∀ token ∈ tokens, token ≠ .openParen ∧ token ≠ .closeParen) :
    IsBalanced tokens := by
  have hclose : tokens.count .closeParen = 0 := List.count_eq_zero.mpr fun hmem => (h _ hmem).2 rfl
  have hopen : tokens.count .openParen = 0 := List.count_eq_zero.mpr fun hmem => (h _ hmem).1 rfl
  refine ⟨fun start hstart => ?_, hclose.trans hopen.symm⟩
  have hle := hstart.sublist.count_le .closeParen
  omega

theorem isBalanced_nil : IsBalanced [] :=
  isBalanced_of_not_paren fun _ hmem => absurd hmem List.not_mem_nil

theorem isBalanced_parenthesized (h : IsBalanced body) :
    IsBalanced (.openParen :: (body ++ [.closeParen])) := by
  refine ⟨closesAtMost_openParen.mpr
    (closesAtMost_append (h.staysOpen.mono (Nat.zero_le _)) ?_), ?_⟩
  · rw [h.count_eq, Nat.add_sub_cancel]
    exact closesAtMost_closeParen.mpr closesAtMost_nil
  · have hcount := h.count_eq
    simp only [List.count_cons, List.count_append, List.count_nil]
    simpa using hcount

/-! ## Lengths of groups -/

/-- The tokens of a group that is closed, up to the parenthesis that closes it. -/
theorem groupLength_append (hopen : ClosesAtMost depth body)
    (hcount : body.count .closeParen = depth + body.count .openParen) (after : List Token) :
    groupLength depth (body ++ .closeParen :: after) = body.length + 1 := by
  induction depth, body using groupLength.induct with
  | case1 depth =>
      -- the counts agree only on the level of the group, so the parenthesis closes it
      obtain rfl : depth = 0 := by simpa using hcount.symm
      rfl
  | case2 depth body ih =>
      rw [List.count_cons_self, List.count_cons_of_ne (by decide)] at hcount
      rw [List.cons_append, groupLength, ih (closesAtMost_openParen.mp hopen) (by omega),
        List.length_cons]
  | case3 body => exact absurd hopen not_closesAtMost_closeParen
  | case4 body depth ih =>
      rw [List.count_cons_self, List.count_cons_of_ne (by decide)] at hcount
      rw [List.cons_append, groupLength, ih (closesAtMost_closeParen.mp hopen) (by omega),
        List.length_cons]
  | case5 depth token body hno hno' ih =>
      rw [List.count_cons_of_ne hno', List.count_cons_of_ne hno] at hcount
      rw [List.cons_append, groupLength.eq_5 depth token _ hno hno',
        ih ((closesAtMost_other hno hno').mp hopen) hcount, List.length_cons]

/-- A group that is not closed takes all tokens. -/
theorem groupLength_eq_length (h : ClosesAtMost depth tokens) :
    groupLength depth tokens = tokens.length := by
  induction depth, tokens using groupLength.induct with
  | case1 depth => rfl
  | case2 depth tokens ih => rw [groupLength, ih (closesAtMost_openParen.mp h), List.length_cons]
  | case3 tokens => exact absurd h not_closesAtMost_closeParen
  | case4 tokens depth ih => rw [groupLength, ih (closesAtMost_closeParen.mp h), List.length_cons]
  | case5 depth token tokens hno hno' ih =>
      rw [groupLength.eq_5 depth token _ hno hno', ih ((closesAtMost_other hno hno').mp h),
        List.length_cons]

theorem groupLength_le_length (depth : Nat) (tokens : List Token) :
    groupLength depth tokens ≤ tokens.length := by
  induction depth, tokens using groupLength.induct with
  | case1 depth => exact Nat.le_refl 0
  | case2 depth tokens ih => exact Nat.succ_le_succ ih
  | case3 tokens => exact Nat.succ_le_succ (Nat.zero_le _)
  | case4 tokens depth ih => exact Nat.succ_le_succ ih
  | case5 depth token tokens hno hno' ih =>
      rw [groupLength.eq_5 depth token _ hno hno']
      exact Nat.succ_le_succ ih

theorem openingGroupLength_le_length (tokens : List Token) :
    openingGroupLength tokens ≤ tokens.length := by
  unfold openingGroupLength
  split
  · exact Nat.succ_le_succ (groupLength_le_length 0 _)
  · exact Nat.zero_le _

/-- Either an open group is not closed, or there is a first parenthesis that closes it. -/
theorem closesAtMost_or_exists (depth : Nat) (tokens : List Token) :
    ClosesAtMost depth tokens ∨ ∃ body after, tokens = body ++ .closeParen :: after ∧
      ClosesAtMost depth body ∧ body.count .closeParen = depth + body.count .openParen := by
  induction depth, tokens using groupLength.induct with
  | case1 depth => exact .inl closesAtMost_nil
  | case2 depth tokens ih =>
      rcases ih with h | ⟨body, after, rfl, hopen, hcount⟩
      · exact .inl (closesAtMost_openParen.mpr h)
      · refine .inr ⟨.openParen :: body, after, rfl, closesAtMost_openParen.mpr hopen, ?_⟩
        rw [List.count_cons_self, List.count_cons_of_ne (by decide), hcount]
        omega
  -- nothing is open besides the group, so this parenthesis closes it
  | case3 tokens => exact .inr ⟨[], tokens, rfl, closesAtMost_nil, rfl⟩
  | case4 tokens depth ih =>
      rcases ih with h | ⟨body, after, rfl, hopen, hcount⟩
      · exact .inl (closesAtMost_closeParen.mpr h)
      · refine .inr ⟨.closeParen :: body, after, rfl, closesAtMost_closeParen.mpr hopen, ?_⟩
        rw [List.count_cons_self, List.count_cons_of_ne (by decide), hcount]
        omega
  | case5 depth token tokens hno hno' ih =>
      rcases ih with h | ⟨body, after, rfl, hopen, hcount⟩
      · exact .inl ((closesAtMost_other hno hno').mpr h)
      · refine .inr ⟨token :: body, after, rfl, (closesAtMost_other hno hno').mpr hopen, ?_⟩
        rw [List.count_cons_of_ne hno', List.count_cons_of_ne hno, hcount]

/-! ## Groups -/

theorem IsBalanced.groupLength (h : IsBalanced body) (after : List Token) :
    groupLength 0 (body ++ .closeParen :: after) = body.length + 1 :=
  groupLength_append h.staysOpen (h.count_eq.trans (Nat.zero_add _).symm) after

/-- What is left after a group. -/
theorem afterGroup_append (h : IsGroup group after) : afterGroup (group ++ after) = after := by
  rcases h with ⟨body, rfl, hbody⟩ | ⟨rfl, body, rfl, hbody⟩
  · have hlength : openingGroupLength (.openParen :: (body ++ [.closeParen]) ++ after) =
        (.openParen :: (body ++ [.closeParen])).length := by
      rw [List.cons_append, List.append_assoc, List.singleton_append, openingGroupLength,
        hbody.groupLength after]
      simp
    rw [afterGroup, hlength, List.drop_left]
  · rw [List.append_nil, afterGroup, openingGroupLength, groupLength_eq_length hbody]
    simp

/-- Elsewhere no group starts. -/
theorem openingGroupLength_of_ne (h : tokens.head? ≠ some .openParen) :
    openingGroupLength tokens = 0 := by
  cases tokens with
  | nil => rfl
  | cons token tokens =>
      rw [openingGroupLength]
      rintro rest hcons
      exact h (congrArg List.head? hcons)

theorem afterGroup_of_ne (h : tokens.head? ≠ some .openParen) : afterGroup tokens = tokens := by
  rw [afterGroup, openingGroupLength_of_ne h, List.drop_zero]

/-- At an opening parenthesis a group starts. -/
theorem exists_isGroup (h : tokens.head? = some .openParen) :
    ∃ group, tokens = group ++ afterGroup tokens ∧ IsGroup group (afterGroup tokens) := by
  obtain ⟨tokens, rfl⟩ : ∃ rest, tokens = .openParen :: rest := by
    cases tokens with
    | nil => exact absurd h (by simp)
    | cons token tokens => exact ⟨tokens, by rw [Option.some.inj h]⟩
  rcases closesAtMost_or_exists 0 tokens with hopen | ⟨body, after, rfl, hopen, hcount⟩
  · -- no parenthesis closes the group, which goes to the end
    have hgroup : IsGroup (.openParen :: tokens) [] := .inr ⟨rfl, tokens, rfl, hopen⟩
    have hafter := afterGroup_append hgroup
    rw [List.append_nil] at hafter
    rw [hafter]
    exact ⟨_, (List.append_nil _).symm, hgroup⟩
  · -- the first one that closes more than was opened ends it
    have hbalanced : IsBalanced body := ⟨hopen, by simpa using hcount⟩
    have hgroup : IsGroup (.openParen :: (body ++ [.closeParen])) after :=
      .inl ⟨body, rfl, hbalanced⟩
    have hafter := afterGroup_append hgroup
    have hsplit : Token.openParen :: (body ++ .closeParen :: after) =
        .openParen :: (body ++ [.closeParen]) ++ after := by simp
    rw [hsplit, hafter]
    exact ⟨_, rfl, hgroup⟩

end

end TableLineage.Sql
