import TableLineage.Proofs.Sql.Masked
import TableLineage.Proofs.Sql.Pieces

/-!
# Reading text without block comments

`Reads` relates a text to the tokens that stand in it, when it has no faults and no block comments.
Blanks may be put in front of such a text (`Reads.blanks`), and a word before it may be forgotten
unless the text starts with a period and an underscore (`Reads.ofOtherWord`).
-/

namespace TableLineage.Sql

/-- A text has no faults and no block comments, and the tokens with the given characters. -/
inductive Reads (dialect : Dialect) : Bool → List Char → List (Token × List Char) → Prop
  | nil (afterWord : Bool) : Reads dialect afterWord [] []
  | token {afterWord : Bool} {c : Char} {inside rest : List Char} {token : Token}
      {written : List (Token × List Char)}
      (hread : lexemeAt dialect afterWord c (inside ++ rest) = .ok (.token token, inside.length))
      (hrest : Reads dialect token.isWord rest written) :
      Reads dialect afterWord (c :: (inside ++ rest)) ((token, c :: inside) :: written)
  | gap {afterWord : Bool} {c : Char} {inside rest : List Char}
      {written : List (Token × List Char)}
      (hread : lexemeAt dialect afterWord c (inside ++ rest) = .ok (.gap, inside.length))
      (hrest : Reads dialect false rest written) :
      Reads dialect afterWord (c :: (inside ++ rest)) written

section

variable {dialect : Dialect} {afterWord : Bool} {text : List Char}
  {written : List (Token × List Char)}

namespace Reads

theorem lexemesFrom (h : Reads dialect afterWord text written) (onComment : CommentReader)
    (line : Nat) :
    ∃ found, TableLineage.Sql.lexemesFrom dialect onComment afterWord line 0 text = .ok found ∧
      found.filterMap Lexeme.token? = written.map Prod.fst := by
  induction h generalizing line with
  | nil => exact ⟨[], rfl, rfl⟩
  | @token afterWord c inside rest token written hread hrest ih =>
      obtain ⟨found, hfound, htokens⟩ := ih (inside.foldl lineAfter (lineAfter line c))
      refine ⟨.token token :: found, ?_, ?_⟩
      · have hword : endsInWord afterWord [.token token] = token.isWord := rfl
        rw [lexemesFrom_cons_of_ok hread]
        simp only [expand, hword]
        rw [lexemesFrom_skip, List.take_left, List.drop_left, hfound]
        rfl
      · show token :: found.filterMap Lexeme.token? = _
        rw [htokens]
        rfl
  | @gap afterWord c inside rest written hread hrest ih =>
      obtain ⟨found, hfound, htokens⟩ := ih (inside.foldl lineAfter (lineAfter line c))
      refine ⟨.gap :: found, ?_, ?_⟩
      · have hword : endsInWord afterWord [.gap] = false := rfl
        rw [lexemesFrom_cons_of_ok hread]
        simp only [expand, hword]
        rw [lexemesFrom_skip, List.take_left, List.drop_left, hfound]
        rfl
      · show found.filterMap Lexeme.token? = _
        rw [htokens]

theorem writtenTokens (h : Reads dialect afterWord text written) (before : Option Char) :
    (piecesFrom dialect before afterWord 0 text).filterMap Piece.written? = written := by
  induction h generalizing before with
  | nil => rfl
  | @token afterWord c inside rest token written hread hrest ih =>
      have hpiece : Piece.written? ⟨before, afterWord, c, inside ++ rest, .token token,
          inside.length⟩ = some (token, c :: inside) := by
        simp [Piece.written?, Piece.text, Lexeme.token?]
      rw [piecesFrom_cons hread rfl, List.filterMap_cons_some hpiece]
      congr 1
      show (piecesFrom dialect _ token.isWord 0 ((inside ++ rest).drop inside.length)).filterMap
        Piece.written? = written
      rw [List.drop_left]
      exact ih _
  | @gap afterWord c inside rest written hread hrest ih =>
      rw [piecesFrom_cons hread rfl, List.filterMap_cons_none rfl]
      show (piecesFrom dialect _ false 0 ((inside ++ rest).drop inside.length)).filterMap
        Piece.written? = written
      rw [List.drop_left]
      exact ih _

/-! ## Blanks -/

theorem space (h : Reads dialect false text written) (afterWord : Bool) :
    Reads dialect afterWord (' ' :: text) written :=
  @Reads.gap dialect afterWord _ [] text written rfl h

theorem lineFeed (h : Reads dialect false text written) (afterWord : Bool) :
    Reads dialect afterWord ('\n' :: text) written :=
  @Reads.gap dialect afterWord _ [] text written rfl h

/-- What follows a line feed is read as if it was preceded by none. -/
theorem tail_of_lineFeed (h : Reads dialect afterWord ('\n' :: text) written) :
    Reads dialect false text written := by
  generalize htext : '\n' :: text = whole at h
  cases h with
  | nil => cases htext
  | @token _ c inside rest token _ hread hrest =>
      obtain ⟨rfl, rfl⟩ := List.cons.inj htext
      cases hread
  | @gap _ c inside rest _ hread hrest =>
      obtain ⟨rfl, rfl⟩ := List.cons.inj htext
      have hlength : 0 = inside.length := (Prod.mk.inj (Except.ok.inj hread)).2
      obtain rfl := List.eq_nil_of_length_eq_zero hlength.symm
      exact hrest

/-- A carriage return takes a line feed after it into the gap. -/
theorem carriageReturn (h : Reads dialect false text written) (afterWord : Bool) :
    Reads dialect afterWord ('\r' :: text) written := by
  by_cases hhead : text.head? = some '\n'
  · obtain ⟨tail, rfl⟩ := List.head?_eq_some_iff.mp hhead
    exact @Reads.gap dialect afterWord '\r' ['\n'] tail written rfl h.tail_of_lineFeed
  · have hread : lexemeAt dialect afterWord '\r' text = .ok (.gap, 0) := by
      simp [lexemeAt, hhead]
    exact @Reads.gap dialect afterWord '\r' [] text written hread h

theorem blanks {blanks : List Char} (hne : blanks ≠ [])
    (hblank : ∀ c ∈ blanks, c = ' ' ∨ c = '\n' ∨ c = '\r')
    (h : Reads dialect false text written) (afterWord : Bool) :
    Reads dialect afterWord (blanks ++ text) written := by
  induction blanks generalizing afterWord with
  | nil => exact absurd rfl hne
  | cons c blanks ih =>
      have hrest : Reads dialect false (blanks ++ text) written := by
        by_cases hnil : blanks = []
        · rw [hnil]
          exact h
        · exact ih hnil (fun d hmem => hblank d (List.mem_cons_of_mem c hmem)) false
      rcases hblank c List.mem_cons_self with rfl | rfl | rfl
      · exact hrest.space afterWord
      · exact hrest.lineFeed afterWord
      · exact hrest.carriageReturn afterWord

end Reads

/-! ## The word before a text -/

theorem lexemeAt_afterWord {c : Char} {rest : List Char}
    (h : ¬ (c = '.' ∧ rest.head? = some '_')) (other : Bool) :
    lexemeAt dialect afterWord c rest = lexemeAt dialect other c rest := by
  unfold lexemeAt
  simp only [h, if_false]

/-- A word before a text only matters for a period and an underscore. -/
theorem Reads.ofOtherWord (h : Reads dialect afterWord text written)
    (hperiod : ['.', '_'].isPrefixOf text = false) (other : Bool) :
    Reads dialect other text written := by
  have hfirst : ∀ {c : Char} {rest : List Char}, text = c :: rest →
      ¬ (c = '.' ∧ rest.head? = some '_') := by
    rintro c rest rfl ⟨rfl, hhead⟩
    obtain ⟨tail, rfl⟩ := List.head?_eq_some_iff.mp hhead
    simp [List.isPrefixOf] at hperiod
  cases h with
  | nil => exact .nil other
  | token hread hrest => exact .token (lexemeAt_afterWord (hfirst rfl) other ▸ hread) hrest
  | gap hread hrest => exact .gap (lexemeAt_afterWord (hfirst rfl) other ▸ hread) hrest

end

end TableLineage.Sql
