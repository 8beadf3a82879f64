import Mathlib.Data.List.Basic
import TableLineage.Sql.Literal

/-!
# What the end of quoted text depends on

A search for the end of quoted text looks at the text up to that end and at most at one character
after it, to see whether a quote is doubled.  So the same end is found when the text after it is
replaced by another, as long as that does not start with the quote.

The lemmas speak of a text `inside ++ rest` with the end within `inside`, and of another `other` in
place of the `rest`.
-/

namespace TableLineage.Sql

/-! ## Delimiters -/

theorem isPrefixOf_append {pattern inside : List Char} (h : pattern.length ≤ inside.length)
    (rest : List Char) :
    pattern.isPrefixOf (inside ++ rest) = pattern.isPrefixOf inside := by
  induction pattern generalizing inside with
  | nil => simp
  | cons c pattern ih =>
      cases inside with
      | nil => simp at h
      | cons d inside =>
          have hle : pattern.length ≤ inside.length := by simpa using h
          simp only [List.cons_append, List.isPrefixOf, ih hle]

theorem findPattern?_append {pattern inside rest : List Char} {position : Nat}
    (h : Text.findPattern? pattern (inside ++ rest) = some position)
    (hle : position + pattern.length ≤ inside.length) (other : List Char) :
    Text.findPattern? pattern (inside ++ other) = some position := by
  induction inside generalizing position with
  | nil =>
      -- only the empty pattern is found within the empty text
      obtain ⟨rfl, rfl⟩ : position = 0 ∧ pattern = [] := by simpa using hle
      cases other <;> simp [Text.findPattern?, List.isPrefixOf]
  | cons c inside ih =>
      have hlength : pattern.length ≤ (c :: inside).length := by omega
      have hsame := isPrefixOf_append hlength rest
      have hother := isPrefixOf_append hlength other
      rw [List.cons_append] at hsame hother
      rw [List.cons_append, Text.findPattern?, hsame] at h
      rw [List.cons_append, Text.findPattern?, hother]
      by_cases hprefix : pattern.isPrefixOf (c :: inside) = true
      · rwa [if_pos hprefix] at h ⊢
      · rw [if_neg hprefix] at h ⊢
        obtain ⟨next, hnext, rfl⟩ := Option.map_eq_some_iff.mp h
        have hnextLength : next + pattern.length ≤ inside.length := by
          rw [List.length_cons] at hle
          omega
        rw [ih hnext hnextLength]
        rfl

theorem afterDelimiter?_append {delimiter inside rest : List Char} {position : Nat}
    (h : afterDelimiter? delimiter (inside ++ rest) = some position)
    (hle : position ≤ inside.length) (other : List Char) :
    afterDelimiter? delimiter (inside ++ other) = some position := by
  obtain ⟨start, hstart, rfl⟩ := Option.map_eq_some_iff.mp h
  rw [afterDelimiter?, findPattern?_append hstart hle other]
  rfl

theorem length_le_of_isPrefixOf {pattern text : List Char}
    (h : pattern.isPrefixOf text = true) : pattern.length ≤ text.length :=
  (List.isPrefixOf_iff_prefix.mp h).length_le

theorem findPattern?_le_length {pattern text : List Char} {position : Nat}
    (h : Text.findPattern? pattern text = some position) :
    position + pattern.length ≤ text.length := by
  induction text generalizing position with
  | nil =>
      simp only [Text.findPattern?, List.isEmpty_iff, Option.ite_none_right_eq_some,
        Option.some.injEq] at h
      obtain ⟨rfl, rfl⟩ := h
      exact Nat.le_refl 0
  | cons c rest ih =>
      rw [Text.findPattern?] at h
      split at h
      · next hprefix =>
          obtain rfl := Option.some.inj h
          rw [Nat.zero_add]
          exact length_le_of_isPrefixOf hprefix
      · obtain ⟨next, hnext, rfl⟩ := Option.map_eq_some_iff.mp h
        have hle := ih hnext
        rw [List.length_cons]
        omega

theorem afterDelimiter?_le_length {delimiter text : List Char} {position : Nat}
    (h : afterDelimiter? delimiter text = some position) : position ≤ text.length := by
  obtain ⟨start, hstart, rfl⟩ := Option.map_eq_some_iff.mp h
  exact findPattern?_le_length hstart

/-! ## Quotes -/

section Equations

variable {α : Type} [DecidableEq α] (quote : α) (escape : Option α)

theorem closingQuote?_nil : closingQuote? quote escape [] = none := rfl

theorem closingQuote?_singleton (c : α) :
    closingQuote? quote escape [c] =
      if escape = some c then none else if c = quote then some 0 else none := rfl

theorem closingQuote?_cons_cons (c d : α) (rest : List α) :
    closingQuote? quote escape (c :: d :: rest) =
      if escape = some c then (closingQuote? quote escape rest).map (· + 2)
      else if c = quote then
        if d = quote then (closingQuote? quote escape rest).map (· + 2) else some 0
      else (closingQuote? quote escape (d :: rest)).map (· + 1) := rfl

end Equations

/-- A closing quote right at the start, which the next character does not double. -/
theorem closingQuote?_eq_zero_iff {α : Type} [DecidableEq α] {quote : α} {escape : Option α} {c : α}
    {rest : List α} :
    closingQuote? quote escape (c :: rest) = some 0 ↔
      escape ≠ some c ∧ c = quote ∧ rest.head? ≠ some quote := by
  cases rest with
  | nil =>
      rw [closingQuote?_singleton]
      split <;> simp_all
  | cons d rest =>
      rw [closingQuote?_cons_cons]
      split
      · simp_all
      · split
        · split <;> simp_all
        · simp_all

section Quotes

variable {rest other : List Char}

theorem closingQuote?_append {quote : Char} {escape : Option Char}
    (hother : other.head? = some quote → rest.head? = some quote) :
    ∀ {inside : List Char} {position : Nat},
      closingQuote? quote escape (inside ++ rest) = some position → position < inside.length →
      closingQuote? quote escape (inside ++ other) = some position
  | [], position, _, hlt => absurd hlt (Nat.not_lt_zero position)
  | [c], position, h, hlt => by
      -- the only place where the character after the end is looked at
      obtain rfl : position = 0 := by simpa using hlt
      obtain ⟨hescape, hquote, hrest⟩ := closingQuote?_eq_zero_iff.mp h
      exact closingQuote?_eq_zero_iff.mpr ⟨hescape, hquote, fun hhead => hrest (hother hhead)⟩
  | c :: d :: inside, position, h, hlt => by
      rw [List.cons_append, List.cons_append, closingQuote?_cons_cons] at h ⊢
      by_cases hescape : escape = some c
      · rw [if_pos hescape] at h ⊢
        obtain ⟨next, hnext, rfl⟩ := Option.map_eq_some_iff.mp h
        have hnextLt : next < inside.length := by simpa using hlt
        rw [closingQuote?_append hother hnext hnextLt]
        rfl
      · rw [if_neg hescape] at h ⊢
        by_cases hquote : c = quote
        · rw [if_pos hquote] at h ⊢
          by_cases hdoubled : d = quote
          · rw [if_pos hdoubled] at h ⊢
            obtain ⟨next, hnext, rfl⟩ := Option.map_eq_some_iff.mp h
            have hnextLt : next < inside.length := by simpa using hlt
            rw [closingQuote?_append hother hnext hnextLt]
            rfl
          · rwa [if_neg hdoubled] at h ⊢
        · rw [if_neg hquote] at h ⊢
          obtain ⟨next, hnext, rfl⟩ := Option.map_eq_some_iff.mp h
          have hnextLt : next < (d :: inside).length := by simpa using hlt
          rw [← List.cons_append] at hnext ⊢
          rw [closingQuote?_append hother hnext hnextLt]
          rfl

theorem closingQuote?_lt_length {quote : Char} {escape : Option Char} :
    ∀ {text : List Char} {position : Nat},
      closingQuote? quote escape text = some position → position < text.length
  | [], position, h => by simp [closingQuote?_nil] at h
  | [c], position, h => by
      rw [closingQuote?_singleton] at h
      split_ifs at h
      obtain rfl := Option.some.inj h
      exact Nat.zero_lt_one
  | c :: d :: rest, position, h => by
      rw [closingQuote?_cons_cons] at h
      rw [List.length_cons, List.length_cons]
      -- escaped character, doubled quote, closing quote, any other
      split_ifs at h
      · obtain ⟨next, hnext, rfl⟩ := Option.map_eq_some_iff.mp h
        have hlt := closingQuote?_lt_length hnext
        omega
      · obtain ⟨next, hnext, rfl⟩ := Option.map_eq_some_iff.mp h
        have hlt := closingQuote?_lt_length hnext
        omega
      · obtain rfl := Option.some.inj h
        omega
      · obtain ⟨next, hnext, rfl⟩ := Option.map_eq_some_iff.mp h
        have hlt := closingQuote?_lt_length hnext
        rw [List.length_cons] at hlt
        omega

end Quotes

/-! ## Escapes -/

theorem digitsOf_succ_cons (value? : Char → Option Nat) (limit : Nat) (c : Char)
    (rest : List Char) :
    Text.digitsOf value? (limit + 1) (c :: rest) =
      match value? c with
      | some digit => digit :: Text.digitsOf value? limit rest
      | none => [] := by
  simp only [Text.digitsOf, List.take_succ_cons, List.map_cons]
  cases value? c <;> simp

theorem digitsOf_append {value? : Char → Option Nat} {limit : Nat} {inside rest : List Char}
    (h : (Text.digitsOf value? limit (inside ++ rest)).length < inside.length)
    (other : List Char) :
    Text.digitsOf value? limit (inside ++ other) = Text.digitsOf value? limit (inside ++ rest) := by
  induction inside generalizing limit with
  | nil => exact absurd h (Nat.not_lt_zero _)
  | cons c inside ih =>
      cases limit with
      | zero => rfl
      | succ limit =>
          rw [List.cons_append, digitsOf_succ_cons] at h ⊢
          rw [List.cons_append, digitsOf_succ_cons]
          -- the digits stop within the text, at a character that is none
          cases hvalue : value? c with
          | none => rfl
          | some digit =>
              simp only [hvalue, List.length_cons, Nat.add_lt_add_iff_right] at h
              simp only [ih h]

theorem codeEscape?_eq_some {count length : Nat} {text : List Char}
    (h : escapeLength?.codeEscape? count text = some length) : length = count + 1 := by
  unfold escapeLength?.codeEscape? at h
  simp only [Option.ite_none_right_eq_some, Option.some.injEq] at h
  exact h.2.symm

theorem codeEscape?_append {count : Nat} {inside : List Char} (h : count ≤ inside.length)
    (rest other : List Char) :
    escapeLength?.codeEscape? count (inside ++ other) =
      escapeLength?.codeEscape? count (inside ++ rest) := by
  unfold escapeLength?.codeEscape?
  rw [List.take_append_of_le_length h, List.take_append_of_le_length h]

theorem escapeLength?_x (rest : List Char) :
    escapeLength? ('x' :: rest) =
      if (Text.digitsOf Text.hexValue? 2 rest).isEmpty then some 1
      else if isPlainByte (Text.numberOf 16 (Text.digitsOf Text.hexValue? 2 rest)) then
        some (1 + (Text.digitsOf Text.hexValue? 2 rest).length)
      else none := rfl

theorem escapeLength?_octal {c : Char} (hu : c ≠ 'u') (hU : c ≠ 'U') (hx : c ≠ 'x')
    (rest : List Char) :
    escapeLength? (c :: rest) =
      if (Text.octalValue? c).isSome then
        if isPlainByte (Text.numberOf 8 (Text.digitsOf Text.octalValue? 3 (c :: rest))) then
          some (Text.digitsOf Text.octalValue? 3 (c :: rest)).length
        else none
      else if c.toNat = 0 then none
      else some 1 := by
  unfold escapeLength?
  split <;> simp_all

theorem length_digitsOf_x {length : Nat} {text : List Char}
    (h : escapeLength? ('x' :: text) = some length) :
    (Text.digitsOf Text.hexValue? 2 text).length + 1 = length := by
  rw [escapeLength?_x] at h
  split at h
  · next hempty =>
      rw [List.isEmpty_iff.mp hempty]
      simpa using h
  · split at h
    · rw [Nat.add_comm]
      simpa using h
    · cases h

/-- An escape is read in the same way if a character of the text follows it. -/
theorem escapeLength?_append {inside rest : List Char} {length : Nat}
    (h : escapeLength? (inside ++ rest) = some length) (hlt : length < inside.length)
    (other : List Char) : escapeLength? (inside ++ other) = some length := by
  cases inside with
  | nil => exact absurd hlt (Nat.not_lt_zero length)
  | cons c inside =>
      rw [List.cons_append] at h ⊢
      -- the digits of a code all stand inside
      have hcode : ∀ count, escapeLength?.codeEscape? count (inside ++ rest) = some length →
          escapeLength?.codeEscape? count (inside ++ other) = some length := by
        intro count hcount
        obtain rfl := codeEscape?_eq_some hcount
        rw [List.length_cons] at hlt
        rw [codeEscape?_append (by omega) rest, hcount]
      by_cases hu : c = 'u'
      · subst hu
        exact hcode 4 h
      · by_cases hU : c = 'U'
        · subst hU
          exact hcode 8 h
        · by_cases hx : c = 'x'
          · subst hx
            have hdigits := length_digitsOf_x h
            rw [List.length_cons] at hlt
            -- fewer digits than characters: the digits end inside
            have hfew : (Text.digitsOf Text.hexValue? 2 (inside ++ rest)).length <
                inside.length := by omega
            rw [escapeLength?_x, digitsOf_append hfew other, ← escapeLength?_x, h]
          · rw [escapeLength?_octal hu hU hx] at h ⊢
            split at h
            · next hoctal =>
                split at h
                · next hplain =>
                    have hdigits := Option.some.inj h
                    rw [← List.cons_append] at hplain hdigits ⊢
                    rw [if_pos hoctal, digitsOf_append (hdigits ▸ hlt) other, if_pos hplain,
                      hdigits]
                · cases h
            · next hoctal => rw [if_neg hoctal, h]

/-! ## Strings with escapes -/

theorem lt_of_escapedStringEnd? {skip count : Nat} {text : List Char}
    (h : escapedStringEnd? skip text = some count) : skip < count := by
  induction text generalizing skip count with
  | nil => cases skip <;> cases h
  | cons c text ih =>
      cases skip with
      | succ skip =>
          rw [escapedStringEnd?] at h
          obtain ⟨inner, hinner, rfl⟩ := Option.map_eq_some_iff.mp h
          have hlt := ih hinner
          omega
      | zero =>
          -- every branch that goes on adds one, so none gives zero
          refine Nat.pos_of_ne_zero ?_
          rintro rfl
          rw [escapedStringEnd?] at h
          split at h
          · split at h
            · simp at h
            · cases h
          · split at h
            · split at h
              · cases h
              · simp at h
            · simp at h

theorem head?_append_of_ne_nil {inside : List Char} (h : inside ≠ []) (rest other : List Char) :
    (inside ++ rest).head? = (inside ++ other).head? := by
  cases inside with
  | nil => exact absurd rfl h
  | cons c inside => rfl

/-- A quote that the text after it does not double is not doubled by the other text either. -/
theorem head?_append_ne_quote {inside rest other : List Char} {quote : Char}
    (hother : other.head? = some quote → rest.head? = some quote)
    (h : (inside ++ rest).head? ≠ some quote) : (inside ++ other).head? ≠ some quote := by
  intro hhead
  cases inside with
  | nil => exact h (hother hhead)
  | cons c inside => exact h hhead

theorem escapedStringEnd?_append {inside rest other : List Char} {skip count : Nat}
    (hother : other.head? = some '\'' → rest.head? = some '\'')
    (h : escapedStringEnd? skip (inside ++ rest) = some count) (hle : count ≤ inside.length) :
    escapedStringEnd? skip (inside ++ other) = some count := by
  induction inside generalizing skip count with
  | nil =>
      have hlt := lt_of_escapedStringEnd? h
      simp at hle
      omega
  | cons c inside ih =>
      rw [List.cons_append] at h ⊢
      cases skip with
      | succ skip =>
          rw [escapedStringEnd?] at h ⊢
          obtain ⟨inner, hinner, rfl⟩ := Option.map_eq_some_iff.mp h
          rw [ih hinner (by simpa using hle)]
          rfl
      | zero =>
          rw [escapedStringEnd?] at h ⊢
          by_cases hquote : c = '\''
          · rw [if_pos hquote] at h ⊢
            by_cases hdoubled : (inside ++ rest).head? = some '\''
            · rw [if_pos hdoubled] at h
              obtain ⟨inner, hinner, rfl⟩ := Option.map_eq_some_iff.mp h
              have hinnerLe : inner ≤ inside.length := by simpa using hle
              have hlt := lt_of_escapedStringEnd? hinner
              -- the string goes on after its doubled quote, so both quotes stand inside
              have hne : inside ≠ [] := by
                rintro rfl
                simp at hinnerLe
                omega
              rw [if_pos (by rw [head?_append_of_ne_nil hne other rest, hdoubled]),
                ih hinner hinnerLe]
              rfl
            · rw [if_neg hdoubled] at h
              rw [if_neg (head?_append_ne_quote hother hdoubled), h]
          · rw [if_neg hquote] at h ⊢
            by_cases hescape : c = '\\'
            · rw [if_pos hescape] at h ⊢
              cases hlength : escapeLength? (inside ++ rest) with
              | none => simp [hlength] at h
              | some length =>
                  simp only [hlength] at h
                  obtain ⟨inner, hinner, rfl⟩ := Option.map_eq_some_iff.mp h
                  have hinnerLe : inner ≤ inside.length := by simpa using hle
                  have hlt := lt_of_escapedStringEnd? hinner
                  simp only [escapeLength?_append hlength (by omega) other, ih hinner hinnerLe,
                    Option.map_some]
            · rw [if_neg hescape] at h ⊢
              obtain ⟨inner, hinner, rfl⟩ := Option.map_eq_some_iff.mp h
              rw [ih hinner (by simpa using hle)]
              rfl

/-! ## Strings with Unicode escapes -/

theorem codeDigits_append {offset count code : Nat} {inside : List Char}
    (h : count ≤ inside.length) (rest other : List Char) :
    codeDigits offset count code (inside ++ other) =
      codeDigits offset count code (inside ++ rest) := by
  induction count generalizing offset code inside with
  | zero => rfl
  | succ count ih =>
      cases inside with
      | nil => simp at h
      | cons c inside =>
          simp only [List.cons_append, codeDigits]
          cases Text.hexValue? c with
          | none => rfl
          | some digit => exact ih (by simpa using h)

/-- The characters of a valid escape are digits in base 16, a plus sign or a backslash. -/
theorem mem_codeDigits {offset count code : Nat} {text : List Char}
    (h : codeDigits offset count code text = .ok ()) :
    ∀ c ∈ text.take count, (Text.hexValue? c).isSome = true := by
  induction count generalizing offset code text with
  | zero => simp
  | succ count ih =>
      cases text with
      | nil => simp
      | cons d text =>
          rw [codeDigits] at h
          cases hdigit : Text.hexValue? d with
          | none => simp [hdigit] at h
          | some digit =>
              simp only [hdigit] at h
              intro c hmem
              rw [List.take_succ_cons, List.mem_cons] at hmem
              rcases hmem with rfl | hmem
              · simp [hdigit]
              · exact ih h c hmem

/-- An escape is one more backslash, or a plus sign and six digits, or four digits. -/
theorem unicodeEscapeLength_eq_ok {offset length : Nat} {text : List Char}
    (h : unicodeEscapeLength offset text = .ok length) :
    (length = 1 ∧ ∃ rest, text = '\\' :: rest) ∨
      (length = 7 ∧ ∃ rest, text = '+' :: rest ∧ codeDigits (offset + 1) 6 0 rest = .ok ()) ∨
      (length = 4 ∧ (∀ rest, text ≠ '\\' :: rest) ∧ (∀ rest, text ≠ '+' :: rest) ∧
        codeDigits offset 4 0 text = .ok ()) := by
  unfold unicodeEscapeLength at h
  split at h
  · exact .inl ⟨by simpa using h.symm, _, rfl⟩
  · next rest =>
      cases hdigits : codeDigits (offset + 1) 6 0 rest with
      | error fault => simp [hdigits, Except.map] at h
      | ok found =>
          exact .inr (.inl ⟨by simpa [hdigits, Except.map] using h.symm, rest, rfl, hdigits⟩)
  · next hbackslash hplus =>
      cases hdigits : codeDigits offset 4 0 text with
      | error fault => simp [hdigits, Except.map] at h
      | ok found =>
          exact .inr (.inr ⟨by simpa [hdigits, Except.map] using h.symm, hbackslash, hplus, rfl⟩)

theorem unicodeEscapeLength_append {offset length : Nat} {inside rest : List Char}
    (h : unicodeEscapeLength offset (inside ++ rest) = .ok length) (hlt : length < inside.length)
    (other : List Char) : unicodeEscapeLength offset (inside ++ other) = .ok length := by
  obtain ⟨d, inside, rfl⟩ : ∃ d tail, inside = d :: tail := by
    cases inside with
    | nil => exact absurd hlt (Nat.not_lt_zero length)
    | cons d tail => exact ⟨d, tail, rfl⟩
  rw [List.length_cons] at hlt
  rw [List.cons_append] at h ⊢
  -- a doubled backslash, six digits behind a plus, or four digits
  rcases unicodeEscapeLength_eq_ok h with ⟨rfl, tail, htail⟩ | ⟨rfl, tail, htail, hdigits⟩ |
    ⟨rfl, hbackslash, hplus, hdigits⟩
  · obtain ⟨rfl, -⟩ := List.cons.inj htail
    rfl
  · obtain ⟨rfl, rfl⟩ := List.cons.inj htail
    rw [unicodeEscapeLength, codeDigits_append (by omega) rest, hdigits]
    rfl
  · have hfour : 4 ≤ (d :: inside).length := Nat.le_of_lt hlt
    have hsame : codeDigits offset 4 0 (d :: inside ++ other) =
        codeDigits offset 4 0 (d :: inside ++ rest) := codeDigits_append hfour rest other
    rw [List.cons_append, List.cons_append, hdigits] at hsame
    have hb : d ≠ '\\' := fun heq => hbackslash _ (by rw [heq])
    have hp : d ≠ '+' := fun heq => hplus _ (by rw [heq])
    unfold unicodeEscapeLength
    split
    · next heq => exact absurd (List.cons.inj heq).1 hb
    · next heq => exact absurd (List.cons.inj heq).1 hp
    · rw [hsame]
      rfl

/-- No quote belongs to an escape. -/
theorem ne_quote_of_unicodeEscape {offset length : Nat} {text : List Char}
    (h : unicodeEscapeLength offset text = .ok length) :
    ∀ c ∈ text.take length, c ≠ '\'' := by
  have hhex : ∀ c, (Text.hexValue? c).isSome = true → c ≠ '\'' := by
    rintro c hc rfl
    exact absurd hc (by decide)
  rcases unicodeEscapeLength_eq_ok h with ⟨rfl, tail, rfl⟩ | ⟨rfl, tail, rfl, hdigits⟩ |
    ⟨rfl, -, -, hdigits⟩
  · simp
  · intro c hmem
    rw [List.take_succ_cons, List.mem_cons] at hmem
    rcases hmem with rfl | hmem
    · decide
    · exact hhex c (mem_codeDigits hdigits c hmem)
  · intro c hmem
    exact hhex c (mem_codeDigits hdigits c hmem)

theorem lt_of_unicodeStringEnd {offset skip count : Nat} {text : List Char}
    (h : unicodeStringEnd offset skip text = .ok count) : offset + skip < count := by
  induction text generalizing offset skip with
  | nil => cases skip <;> cases h
  | cons c text ih =>
      cases skip with
      -- the character belongs to an escape
      | succ skip =>
          have hlt := ih h
          omega
      | zero =>
          rw [unicodeStringEnd] at h
          split at h
          · split at h
            · have hlt := ih h
              omega
            · have hcount : offset + 1 = count := by simpa using h
              omega
          · split at h
            · split at h
              · cases h
              · have hlt := ih h
                omega
            · have hlt := ih h
              omega

theorem unicodeStringEnd_append {inside rest other : List Char} {offset skip count : Nat}
    (hother : other.head? = some '\'' → rest.head? = some '\'')
    (h : unicodeStringEnd offset skip (inside ++ rest) = .ok count)
    (hle : count ≤ offset + inside.length) :
    unicodeStringEnd offset skip (inside ++ other) = .ok count := by
  induction inside generalizing offset skip with
  | nil =>
      have hlt := lt_of_unicodeStringEnd h
      simp at hle
      omega
  | cons c inside ih =>
      rw [List.length_cons] at hle
      rw [List.cons_append] at h ⊢
      cases skip with
      | succ skip => exact ih h (by omega)
      | zero =>
          rw [unicodeStringEnd] at h ⊢
          by_cases hquote : c = '\''
          · rw [if_pos hquote] at h ⊢
            by_cases hdoubled : (inside ++ rest).head? = some '\''
            · rw [if_pos hdoubled] at h
              have hlt := lt_of_unicodeStringEnd h
              -- again both quotes stand inside
              have hne : inside ≠ [] := by
                rintro rfl
                simp at hle
                omega
              rw [if_pos (by rw [head?_append_of_ne_nil hne other rest, hdoubled])]
              exact ih h (by omega)
            · rw [if_neg hdoubled] at h
              rw [if_neg (head?_append_ne_quote hother hdoubled), h]
          · rw [if_neg hquote] at h ⊢
            by_cases hescape : c = '\\'
            · rw [if_pos hescape] at h ⊢
              cases hlength : unicodeEscapeLength (offset + 1) (inside ++ rest) with
              | error fault => simp [hlength] at h
              | ok length =>
                  simp only [hlength] at h
                  have hlt := lt_of_unicodeStringEnd h
                  simp only [unicodeEscapeLength_append hlength (by omega) other]
                  exact ih h (by omega)
            · rw [if_neg hescape] at h ⊢
              exact ih h (by omega)

theorem closingQuote?_cons_of_ne {quote c : Char} (h : c ≠ quote) (rest : List Char) :
    closingQuote? quote none (c :: rest) = (closingQuote? quote none rest).map (· + 1) := by
  cases rest with
  | nil => simp [closingQuote?_singleton, closingQuote?_nil, h]
  | cons d rest => simp [closingQuote?_cons_cons, h]

theorem closingQuote?_append_of_ne {quote : Char} {inside : List Char}
    (h : ∀ c ∈ inside, c ≠ quote) (rest : List Char) :
    closingQuote? quote none (inside ++ rest) =
      (closingQuote? quote none rest).map (· + inside.length) := by
  induction inside with
  | nil => simp
  | cons c inside ih =>
      rw [List.cons_append, closingQuote?_cons_of_ne (h c List.mem_cons_self),
        ih fun d hmem => h d (List.mem_cons_of_mem c hmem), Option.map_map, List.length_cons]
      rfl

/-- A string with Unicode escapes ends at the quote that ends it as a plain string. -/
theorem closingQuote?_of_unicodeStringEnd {offset skip count : Nat} {text : List Char}
    (h : unicodeStringEnd offset skip text = .ok count) :
    ∃ position, closingQuote? '\'' none (text.drop skip) = some position ∧
      count = offset + skip + position + 1 := by
  induction text generalizing offset skip with
  | nil => cases skip <;> cases h
  | cons c text ih =>
      cases skip with
      | succ skip =>
          obtain ⟨position, hposition, hcount⟩ := ih h
          exact ⟨position, hposition, by omega⟩
      | zero =>
          rw [unicodeStringEnd] at h
          rw [List.drop_zero]
          by_cases hquote : c = '\''
          · rw [if_pos hquote] at h
            by_cases hdoubled : text.head? = some '\''
            · rw [if_pos hdoubled] at h
              obtain ⟨position, hposition, hcount⟩ := ih h
              cases text with
              | nil => cases hdoubled
              | cons d text =>
                  obtain rfl : d = '\'' := by simpa using hdoubled
                  refine ⟨position + 2, ?_, by omega⟩
                  rw [closingQuote?_cons_cons, if_neg (by simp), if_pos hquote, if_pos rfl]
                  rw [show text = (c :: text).drop 1 from rfl]
                  simpa using hposition
            · rw [if_neg hdoubled] at h
              have hcount : offset + 1 = count := by simpa using h
              exact ⟨0, closingQuote?_eq_zero_iff.mpr ⟨by simp, hquote, hdoubled⟩, by omega⟩
          · rw [if_neg hquote] at h
            rw [closingQuote?_cons_of_ne hquote]
            by_cases hescape : c = '\\'
            · rw [if_pos hescape] at h
              cases hlength : unicodeEscapeLength (offset + 1) text with
              | error fault => simp [hlength] at h
              | ok length =>
                  simp only [hlength] at h
                  obtain ⟨position, hposition, hcount⟩ := ih h
                  -- an escape that took the whole text would leave no quote
                  have hle : length ≤ text.length := by
                    by_contra hnot
                    rw [List.drop_eq_nil_of_le (by omega)] at hposition
                    cases hposition
                  refine ⟨position + length + 1, ?_, by omega⟩
                  rw [← List.take_append_drop length text,
                    closingQuote?_append_of_ne (ne_quote_of_unicodeEscape hlength), hposition,
                    List.length_take, Nat.min_eq_left hle]
                  rfl
            · rw [if_neg hescape] at h
              obtain ⟨position, hposition, hcount⟩ := ih h
              rw [List.drop_zero] at hposition
              exact ⟨position + 1, by rw [hposition]; rfl, by omega⟩

/-! ## Strings with a delimiter of their own -/

theorem delimitedStringEnd_cons (letters : List Char) (c : Char) (body : List Char) :
    delimitedStringEnd letters (c :: body) =
      if c = ' ' ∨ c = '\t' ∨ c = '\r' ∨ c = '\n' then
        .error ⟨.missingDelimiter (String.ofList letters), letters.length + 1⟩
      else
        match afterDelimiter? [matchingDelimiter c, '\''] body with
        | some position => .ok (position + 1)
        | none => .error ⟨.unterminatedString, letters.length⟩ := rfl

theorem delimitedStringEnd_append {letters inside rest : List Char} {count : Nat}
    (h : delimitedStringEnd letters (inside ++ rest) = .ok count) (hle : count ≤ inside.length)
    (other : List Char) (hne : inside ≠ []) :
    delimitedStringEnd letters (inside ++ other) = .ok count := by
  cases inside with
  | nil => exact absurd rfl hne
  | cons c inside =>
      rw [List.cons_append, delimitedStringEnd_cons] at h ⊢
      split at h
      · cases h
      · next hdelimiter =>
          rw [if_neg hdelimiter]
          cases hafter : afterDelimiter? [matchingDelimiter c, '\''] (inside ++ rest) with
          | none => simp [hafter] at h
          | some position =>
              simp only [hafter, Except.ok.injEq] at h
              rw [List.length_cons] at hle
              simp only [afterDelimiter?_append hafter (by omega) other, h]

end TableLineage.Sql
