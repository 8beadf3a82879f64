import TableLineage.Proofs.Sql.Cover
import TableLineage.Sql.Tokenized

/-!
# The pieces of a text

The tokenizer cuts a text into pieces, one for each lexeme that stands in it.  A block comment may
stand for lexemes of its own, those of a hint, so the lexemes of a text are what its pieces stand
for (`isCut_of_lexemesFrom`).  `writtenTokens` tells tokens apart by their characters, and not only
by what the scan for tables knows of them.
-/

namespace TableLineage.Sql

/-! ## Lines do not matter -/

section

variable {dialect : Dialect} {onComment : CommentReader} {afterWord : Bool} {line skip more : Nat}
  {c : Char} {text rest : List Char} {lexeme : Lexeme} {found : List Lexeme}

theorem lexemesFrom_cons_of_ok (h : lexemeAt dialect afterWord c rest = .ok (lexeme, more)) :
    lexemesFrom dialect onComment afterWord line 0 (c :: rest) =
      match expand onComment afterWord line lexeme with
      | .error error => .error error
      | .ok new =>
        match lexemesFrom dialect onComment (endsInWord afterWord new) (lineAfter line c) more
            rest with
        | .error error => .error error
        | .ok lexemes => .ok (new ++ lexemes) := by
  rw [lexemesFrom]
  generalize lexemeAt dialect afterWord c rest = reading at h ⊢
  subst h
  rfl

/-- The first lexeme of a text without faults, what it stands for, and the lexemes after it. -/
theorem lexemesFrom_cons_eq_ok
    (h : lexemesFrom dialect onComment afterWord line 0 (c :: rest) = .ok found) :
    ∃ lexeme more new lexemes, lexemeAt dialect afterWord c rest = .ok (lexeme, more) ∧
      expand onComment afterWord line lexeme = .ok new ∧
      lexemesFrom dialect onComment (endsInWord afterWord new) (lineAfter line c) more rest =
        .ok lexemes ∧ found = new ++ lexemes := by
  cases hlexeme : lexemeAt dialect afterWord c rest with
  -- neither the lexeme nor what it expands to nor the rest can fail
  | error fault =>
      rw [lexemesFrom] at h
      simp only [hlexeme] at h
      cases h
  | ok reading =>
      obtain ⟨lexeme, more⟩ := reading
      rw [lexemesFrom_cons_of_ok hlexeme] at h
      cases hnew : expand onComment afterWord line lexeme with
      | error error =>
          simp only [hnew] at h
          cases h
      | ok new =>
          simp only [hnew] at h
          cases hrest : lexemesFrom dialect onComment (endsInWord afterWord new)
              (lineAfter line c) more rest with
          | error error =>
              simp only [hrest] at h
              cases h
          | ok lexemes =>
              simp only [hrest, Except.ok.injEq] at h
              exact ⟨lexeme, more, new, lexemes, rfl, hnew, hrest, h.symm⟩

/-- Characters that belong to a lexeme already read only count for the line. -/
theorem lexemesFrom_skip :
    lexemesFrom dialect onComment afterWord line skip text =
      lexemesFrom dialect onComment afterWord ((text.take skip).foldl lineAfter line) 0
        (text.drop skip) := by
  induction skip generalizing line text with
  | zero => rfl
  | succ skip ih =>
      cases text with
      | nil => rfl
      | cons c rest =>
          show lexemesFrom dialect onComment afterWord (lineAfter line c) skip rest = _
          rw [ih]
          rfl

/-- The line at which a comment stands does not decide what it stands for. -/
def IgnoresLine (onComment : CommentReader) : Prop :=
  ∀ afterWord line text new, onComment afterWord line text = .ok new →
    ∀ other, onComment afterWord other text = .ok new

theorem ignoresLine_keepComment : IgnoresLine keepComment := by
  intro afterWord line text new h other
  exact h

theorem expand_line (hignores : IgnoresLine onComment) {new : List Lexeme}
    (h : expand onComment afterWord line lexeme = .ok new) (other : Nat) :
    expand onComment afterWord other lexeme = .ok new := by
  cases lexeme with
  | blockComment text => exact hignores afterWord line text new h other
  | token | gap => exact h

theorem lexemesFrom_line (hignores : IgnoresLine onComment)
    (h : lexemesFrom dialect onComment afterWord line skip text = .ok found) (other : Nat) :
    lexemesFrom dialect onComment afterWord other skip text = .ok found := by
  induction text generalizing afterWord line skip found other with
  | nil => exact h
  | cons c rest ih =>
      cases skip with
      | succ skip => exact ih h _
      | zero =>
          obtain ⟨lexeme, more, new, lexemes, hlexeme, hnew, hrest, rfl⟩ :=
            lexemesFrom_cons_eq_ok h
          rw [lexemesFrom_cons_of_ok hlexeme]
          simp only [expand_line hignores hnew other, ih hrest (lineAfter other c)]

theorem ignoresLine_readHint (dialect : Dialect) : IgnoresLine (readHint dialect) := by
  intro afterWord line text new h other
  unfold readHint at h ⊢
  split at h
  · exact lexemesFrom_line ignoresLine_keepComment h other
  · exact h

end

/-! ## Pieces -/

/-- A lexeme of a text and where it stands. -/
structure Piece where
  /-- The character before it. -/
  before : Option Char
  /-- Whether the lexeme before it is a word. -/
  afterWord : Bool
  first : Char
  /-- The text after its first character. -/
  rest : List Char
  lexeme : Lexeme
  /-- The number of characters that it takes after its first. -/
  more : Nat

namespace Piece

/-- The characters that a piece takes. -/
def text (piece : Piece) : List Char :=
  piece.first :: piece.rest.take piece.more

/-- The text after a piece. -/
def after (piece : Piece) : List Char :=
  piece.rest.drop piece.more

/-- The lexemes that a piece stands for: those of its text if it is a hint. -/
def standsFor (dialect : Dialect) (piece : Piece) : List Lexeme :=
  match expand (readHint dialect) piece.afterWord 1 piece.lexeme with
  | .ok new => new
  | .error _ => []

/-- Whether the lexeme before the text after a piece is a word. -/
def leavesWord (dialect : Dialect) (piece : Piece) : Bool :=
  endsInWord piece.afterWord (piece.standsFor dialect)

/-- The token that a piece is, with its characters. -/
def written? (piece : Piece) : Option (Token × List Char) :=
  piece.lexeme.token?.map fun token => (token, piece.text)

end Piece

/-- The pieces of a text after its first `skip` characters, up to a fault; `before` is the character
before the text. -/
def piecesFrom (dialect : Dialect) (before : Option Char) (afterWord : Bool) :
    Nat → List Char → List Piece
  | _, [] => []
  | skip + 1, c :: rest => piecesFrom dialect (some c) afterWord skip rest
  | 0, c :: rest =>
    match lexemeAt dialect afterWord c rest with
    | .error _ => []
    | .ok (lexeme, more) =>
      let piece : Piece := ⟨before, afterWord, c, rest, lexeme, more⟩
      piece :: piecesFrom dialect (some c) (piece.leavesWord dialect) more rest

/-- The pieces of a text. -/
def pieces (dialect : Dialect) (sql : List Char) : List Piece :=
  piecesFrom dialect none false 0 sql

/-- The tokens that stand in a text, each with its characters.  The tokens of a hint stand in a
comment and are left out. -/
def writtenTokens (dialect : Dialect) (sql : List Char) : List (Token × List Char) :=
  (pieces dialect sql).filterMap Piece.written?

/-! ## Texts without faults -/

/-- A text is cut into the pieces, without a fault. -/
inductive IsCut (dialect : Dialect) : Option Char → Bool → List Char → List Piece → Prop
  | nil (before : Option Char) (afterWord : Bool) : IsCut dialect before afterWord [] []
  | cons (piece : Piece) {pieces : List Piece}
      (hread : lexemeAt dialect piece.afterWord piece.first piece.rest =
        .ok (piece.lexeme, piece.more))
      (hafter : IsCut dialect (lastCharacter piece.before piece.text) (piece.leavesWord dialect)
        piece.after pieces) :
      IsCut dialect piece.before piece.afterWord (piece.first :: piece.rest) (piece :: pieces)

section

variable {dialect : Dialect} {before : Option Char} {afterWord : Bool} {line skip : Nat}
  {text : List Char} {found : List Lexeme}

theorem piecesFrom_skip :
    piecesFrom dialect before afterWord skip text =
      piecesFrom dialect (lastCharacter before (text.take skip)) afterWord 0 (text.drop skip) := by
  induction skip generalizing before text with
  | zero => rfl
  | succ skip ih =>
      cases text with
      | nil => rfl
      | cons c rest => exact ih

theorem piecesFrom_cons {c : Char} {rest : List Char} {lexeme : Lexeme} {more : Nat}
    {piece : Piece} (h : lexemeAt dialect afterWord c rest = .ok (lexeme, more))
    (hpiece : piece = ⟨before, afterWord, c, rest, lexeme, more⟩) :
    piecesFrom dialect before afterWord 0 (c :: rest) =
      piece :: piecesFrom dialect (lastCharacter before piece.text) (piece.leavesWord dialect) 0
        piece.after := by
  subst hpiece
  rw [piecesFrom]
  simp only [h]
  rw [piecesFrom_skip]
  rfl

/-- The lexemes of a text without faults are what its pieces stand for. -/
theorem isCut_of_lexemesFrom (before : Option Char)
    (h : lexemesFrom dialect (readHint dialect) afterWord line 0 text = .ok found) :
    IsCut dialect before afterWord text (piecesFrom dialect before afterWord 0 text) ∧
      found = (piecesFrom dialect before afterWord 0 text).flatMap (Piece.standsFor dialect) := by
  -- a piece takes several characters at once, so the induction is on the length
  induction hlength : text.length using Nat.strongRecOn generalizing before afterWord line text
      found with
  | ind length ih =>
      cases text with
      | nil =>
          obtain rfl := Except.ok.inj h
          exact ⟨.nil before afterWord, rfl⟩
      | cons c rest =>
          obtain ⟨lexeme, more, new, lexemes, hlexeme, hnew, hrest, rfl⟩ :=
            lexemesFrom_cons_eq_ok h
          obtain ⟨piece, hpiece⟩ : ∃ piece : Piece,
              piece = ⟨before, afterWord, c, rest, lexeme, more⟩ := ⟨_, rfl⟩
          have hstands : piece.standsFor dialect = new := by
            subst hpiece
            simp only [Piece.standsFor, expand_line (ignoresLine_readHint dialect) hnew 1]
          rw [piecesFrom_cons hlexeme hpiece]
          have hafter : lexemesFrom dialect (readHint dialect) (piece.leavesWord dialect)
              ((rest.take more).foldl lineAfter (lineAfter line c)) 0 piece.after =
                .ok lexemes := by
            rw [Piece.leavesWord, hstands, hpiece, Piece.after, ← lexemesFrom_skip]
            exact hrest
          have hshort : piece.after.length < length := by
            subst hpiece
            show (rest.drop more).length < length
            rw [List.length_drop, ← hlength, List.length_cons]
            omega
          obtain ⟨hcut, rfl⟩ :=
            ih _ hshort (lastCharacter before piece.text) hafter rfl
          refine ⟨?_, by rw [List.flatMap_cons, hstands]⟩
          subst hpiece
          exact .cons _ hlexeme hcut

/-- The lexemes of a text are what its pieces stand for. -/
theorem isCut_of_lexemes {sql : List Char} (h : lexemes dialect sql = .ok found) :
    IsCut dialect none false sql (pieces dialect sql) ∧
      found = (pieces dialect sql).flatMap (Piece.standsFor dialect) :=
  isCut_of_lexemesFrom none h

end

end TableLineage.Sql
