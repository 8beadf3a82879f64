import TableLineage.Order.Ascending
import TableLineage.Sql.Cursor
import TableLineage.Text.Lowercase

/-!
# Common table expressions

A `WITH` clause names tables that exist within its statement only.  All definitions anywhere in a
statement share one scope.  A definition is

`name [(columns)] AS [NOT] [MATERIALIZED] (query)`

and anything else after `WITH` defines nothing, for instance `WITH TIME ZONE` and `WITH (NOLOCK)`.
-/

namespace TableLineage.Sql

/-! ## Scopes -/

/-- The lower-case names of a statement's common table expressions, in ascending order. -/
structure CteScope where
  names : List String
  ascending : names.Pairwise (· < ·)

namespace CteScope

/-- The scope without names. -/
def empty : CteScope :=
  ⟨[], .nil⟩

/-- The scope with one more name, in any letter case. -/
def insert (scope : CteScope) (name : String) : CteScope :=
  ⟨Order.insertAscending (Text.lowercase name) scope.names,
    Order.pairwise_insertAscending scope.ascending⟩

/-- Whether a name in any letter case is in the scope. -/
def contains (scope : CteScope) (name : String) : Bool :=
  scope.names.contains (Text.lowercase name)

/-- The number of names. -/
def size (scope : CteScope) : Nat :=
  scope.names.length

/-- Whether there are no names. -/
def isEmpty (scope : CteScope) : Bool :=
  scope.names.isEmpty

/-- The scope of a list of names. -/
def ofNames (names : List String) : CteScope :=
  names.foldl insert empty

end CteScope

/-! ## Definitions -/

/-- The tokens after a keyword that may stand at their start. -/
def afterOptional (keyword : Keyword) : List Token → List Token
  | [] => []
  | token :: rest => if token.isKeyword keyword then rest else token :: rest

/-- The tokens after a group that may stand at their start. -/
def afterGroup (tokens : List Token) : List Token :=
  tokens.drop (openingGroupLength tokens)

theorem length_afterOptional_le (keyword : Keyword) (tokens : List Token) :
    (afterOptional keyword tokens).length ≤ tokens.length := by
  cases tokens with
  | nil => simp [afterOptional]
  | cons token rest => simp only [afterOptional]; split <;> simp

theorem length_afterGroup_le (tokens : List Token) :
    (afterGroup tokens).length ≤ tokens.length := by
  simp [afterGroup]

/-- The name that a definition at the start of the tokens defines, and the tokens after it. -/
def definition? : List Token → Option (String × List Token)
  | .word name _ :: rest =>
    match afterGroup rest with
    | as :: rest =>
      if as.isKeyword .AS then
        let body := afterOptional .MATERIALIZED (afterOptional .NOT rest)
        if body.head? = some .openParen then some (name, afterGroup body) else none
      else
        none
    | [] => none
  | _ => none

/-- A definition takes at least its name. -/
theorem length_lt_of_definition? {tokens rest : List Token} {name : String}
    (h : definition? tokens = some (name, rest)) : rest.length < tokens.length := by
  unfold definition? at h
  split at h
  case h_1 value quote rest' =>
    split at h
    case h_1 as rest'' hgroup =>
      have hle : (as :: rest'').length ≤ rest'.length := by
        rw [← hgroup]; exact length_afterGroup_le rest'
      split at h
      case isTrue =>
        simp only at h
        split at h
        case isTrue =>
          obtain ⟨-, rfl⟩ := Prod.mk.inj (Option.some.inj h)
          have h₁ := length_afterGroup_le
            (afterOptional .MATERIALIZED (afterOptional .NOT rest''))
          have h₂ := length_afterOptional_le .MATERIALIZED (afterOptional .NOT rest'')
          have h₃ := length_afterOptional_le .NOT rest''
          simp only [List.length_cons] at hle ⊢
          omega
        case isFalse => simp at h
      case isFalse => simp at h
    case h_2 => simp at h
  case h_2 => simp at h

/-- The names that a chain of definitions at the start of the tokens defines, separated by
commas. -/
def definitions (tokens : List Token) : List String :=
  match _h : definition? tokens with
  | none => []
  | some (name, rest) =>
    if rest.head? = some .comma then name :: definitions rest.tail else [name]
termination_by tokens.length
decreasing_by
  have := length_lt_of_definition? _h
  rw [List.length_tail]
  omega

/-- The names that are defined in a token list, in the order of their definitions.  The definitions
inside the body of another one follow it. -/
def definedNames : List Token → List String
  | [] => []
  | token :: rest =>
    if token.isKeyword .WITH then
      definitions (afterOptional .RECURSIVE rest) ++ definedNames rest
    else
      definedNames rest

/-- The scope of a statement. -/
def collectCtes (statement : List Token) : CteScope :=
  CteScope.ofNames (definedNames statement)

end TableLineage.Sql
