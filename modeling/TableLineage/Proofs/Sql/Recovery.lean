import TableLineage.Proofs.Text.LineStarts
import TableLineage.Sql.Scan

/-!
# Recovery keeps the lines before a fault

A fault is noticed on a line of the text (`le_line_of_lexemesFrom`, `line_le_of_recovered`).
Recovery takes the tokens of the lines before it, as they stand in the text, and of nothing else:
the text is cut where the line of the fault starts, and offsets and lines agree on what is before
that place (`recovery_keeps_lines_before`).
-/

namespace TableLineage.Sql

open Text (bytes lineFeeds lineOf lineStart firstLines)

variable {dialect : Dialect} {onComment : CommentReader} {afterWord : Bool} {line skip : Nat}
  {text : List Char} {error : LexError} {message : String}

/-! ## Lines of faults -/

/-- Faults in a comment are noticed on the line of the comment or after it. -/
def ReportsFromLine (onComment : CommentReader) : Prop :=
  ∀ ⦃afterWord line text error⦄, onComment afterWord line text = .error error → line ≤ error.line

theorem le_lineAfter (line : Nat) (c : Char) : line ≤ lineAfter line c := by
  unfold lineAfter
  split
  · exact Nat.le_succ line
  · exact Nat.le_refl line

/-- Faults are noticed on the line where reading starts or after it. -/
theorem le_line_of_lexemesFrom (hreports : ReportsFromLine onComment)
    (h : lexemesFrom dialect onComment afterWord line skip text = .error error) :
    line ≤ error.line := by
  induction text generalizing afterWord line skip with
  | nil => simp [lexemesFrom] at h
  | cons c rest ih =>
      cases skip with
      | succ skip => exact (le_lineAfter line c).trans (ih h)
      | zero =>
          rw [lexemesFrom] at h
          split at h
          case h_1 fault _ =>
              obtain rfl := Except.error.inj h
              exact Nat.le_add_right line _
          case h_2 lexeme more _ =>
              split at h
              -- only a hint is read again, and it reports from the line on which it starts
              case h_1 inner hinner =>
                  obtain rfl := Except.error.inj h
                  cases lexeme with
                  | blockComment comment => exact hreports hinner
                  | token | gap => simp [expand] at hinner
              case h_2 new hnew =>
                  split at h
                  case h_1 inner hinner =>
                      obtain rfl := Except.error.inj h
                      exact (le_lineAfter line c).trans (ih hinner)
                  case h_2 => cases h

theorem reportsFromLine_keepComment : ReportsFromLine keepComment := by
  intro afterWord line text error h
  cases h

theorem reportsFromLine_readHint (dialect : Dialect) : ReportsFromLine (readHint dialect) := by
  intro afterWord line text error h
  unfold readHint at h
  split at h
  · exact le_line_of_lexemesFrom reportsFromLine_keepComment h
  · cases h

theorem one_le_line_of_tokens (h : tokens dialect text = .error error) : 1 ≤ error.line := by
  unfold tokens at h
  cases hlexemes : lexemes dialect text with
  | ok found =>
      rw [hlexemes] at h
      cases h
  | error inner =>
      rw [hlexemes] at h
      obtain rfl := Except.error.inj h
      exact le_line_of_lexemesFrom (reportsFromLine_readHint dialect) hlexemes

/-! ## Recovered tokens -/

/-- What a warning of recovery says: the text has a fault, and the lines before it have none. -/
theorem exists_fault_of_recovered
    (h : (tokenize dialect text).recovery.warning? = some (.tokenizerRecovered line message)) :
    ∃ fault, tokens dialect text = .error fault ∧ fault.line = line ∧
      fault.cause.message = message ∧
      tokens dialect (firstLines (line - 1) text) = .ok (tokenize dialect text).tokens := by
  unfold tokenize at h ⊢
  split at h
  case h_1 => cases h
  case h_2 fault hfault =>
      dsimp only at h ⊢
      split at h
      case h_1 found hfound =>
          obtain ⟨rfl, rfl⟩ : fault.line = line ∧ fault.cause.message = message := by
            simpa [Recovery.warning?] using h
          rw [Text.beforeLine_eq_firstLines] at hfound
          exact ⟨fault, hfault, rfl, rfl, hfound⟩
      case h_2 => simp [Recovery.warning?] at h

/-- The line of a fault after which tokens were recovered is a line of the text: a text without its
line could not be cut, and would have the same fault again. -/
theorem line_le_of_recovered
    (h : (tokenize dialect text).recovery.warning? = some (.tokenizerRecovered line message)) :
    line ≤ 1 + lineFeeds text := by
  obtain ⟨fault, hfault, -, -, hfound⟩ := exists_fault_of_recovered h
  by_contra hline
  rw [← Text.beforeLine_eq_firstLines, Text.beforeLine_eq_self (Nat.lt_of_not_le hline), hfault]
    at hfound
  cases hfound

/-- **Recovery keeps the lines before a fault.**  Starts of lines and lines of offsets are adjoint
on the lines of a text.  A line that is not there starts at the end, and every start lies between
two characters.  If tokens were recovered from a fault on a line, it is a line of the text, the
tokens are those of the text made of the lines before it, which has no fault, and the bytes of this
text are those that lie on lines before it. -/
theorem recovery_keeps_lines_before (text : List Char) :
    (∀ line offset, 1 ≤ line → line ≤ 1 + lineFeeds text →
      (lineStart text line ≤ offset ↔ line ≤ lineOf text offset)) ∧
    (∀ line, 1 + lineFeeds text < line → lineStart text line = (bytes text).length) ∧
    (∀ line, lineStart text line ≤ (bytes text).length ∧ firstLines (line - 1) text <+: text ∧
      lineStart text line = (bytes (firstLines (line - 1) text)).length) ∧
    ∀ dialect line message,
      (tokenize dialect text).recovery.warning? = some (.tokenizerRecovered line message) →
        1 ≤ line ∧ line ≤ 1 + lineFeeds text ∧
        tokenize dialect (firstLines (line - 1) text) =
          ⟨(tokenize dialect text).tokens, .unneeded⟩ ∧
        ∀ offset, offset < (bytes (firstLines (line - 1) text)).length ↔
          lineOf text offset < line := by
  refine ⟨fun line offset => Text.lineStart_le_iff,
    fun line => Text.lineStart_of_lt, fun line => ?_, ?_⟩
  · exact ⟨Text.lineStart_le_length text line, Text.firstLines_prefix _ text,
      Text.lineStart_eq text line⟩
  · intro dialect line message h
    -- the fault is on a line of the text, and its lines before that are read again
    obtain ⟨fault, hfault, rfl, -, hfound⟩ := exists_fault_of_recovered h
    have hone : 1 ≤ fault.line := one_le_line_of_tokens hfault
    have hlast := line_le_of_recovered h
    refine ⟨hone, hlast, ?_, fun offset => ?_⟩
    · rw [tokenize, hfound]
    · calc offset < (bytes (firstLines (fault.line - 1) text)).length
          ↔ ¬ lineStart text fault.line ≤ offset := by rw [← Text.lineStart_eq, Nat.not_le]
        _ ↔ ¬ fault.line ≤ lineOf text offset := not_congr (Text.lineStart_le_iff hone hlast)
        _ ↔ lineOf text offset < fault.line := Nat.not_le

/-- A string that is not closed on the third line costs that line and what follows. -/
theorem recovery_before_open_string :
    let text := "SELECT 'é\n' FROM a\r\nJOIN 'b\nJOIN c".toList
    (tokenize .generic text).recovery.warning? =
      some (.tokenizerRecovered 3 "Unterminated string literal") ∧
    (tokenize .generic text).tokens.length = 4 ∧
    tokenize .generic (firstLines 2 text) = ⟨(tokenize .generic text).tokens, .unneeded⟩ ∧
    (lineStart text 2 ≤ 11 ↔ 2 ≤ lineOf text 11) := by
  intro text
  have hwarning : (tokenize .generic text).recovery.warning? =
      some (.tokenizerRecovered 3 "Unterminated string literal") := by
    decide +kernel
  obtain ⟨hadjoint, -, -, hrecovered⟩ := recovery_keeps_lines_before text
  have hshort := (hrecovered _ _ _ hwarning).2.2.1
  exact ⟨hwarning, by decide +kernel, hshort, hadjoint 2 11 (by decide) (by decide)⟩

end TableLineage.Sql
