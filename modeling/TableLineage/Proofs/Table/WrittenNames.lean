import TableLineage.Proofs.Table.DottedNames
import TableLineage.Sql.Reference

/-!
# Names as they are written

A part of a dotted name is written bare or between quotes, with any blanks around it, and the parts
of one name need not be written alike.  However they are written, the same parts are read back
(`splitName_writtenName`), so that the text has the id of a reference with these parts
(`canonical?_writtenName`).

The reader is outside quotes wherever a part begins or ends, which is what carries the induction on
the parts.  Within a part there are two modes, with an equation for each: outside quotes blanks are
left out (`splitFrom_outside`), and inside nothing counts but the closing quote
(`splitFrom_inside`).
-/

namespace TableLineage.Table

open Text

/-! ## Written parts -/

/-- A text between marks. -/
def enclosed (mark : Sql.QuoteMark) (text : String) : String :=
  String.ofList (mark.opening :: (text.toList ++ [mark.closing]))

/-- What a part must not hold to be written between given marks, or bare. -/
def Fits (part : String) : Option Sql.QuoteMark → Prop
  | some mark => mark.closing ∉ part.toList
  | none => ∀ c ∈ part.toList, isBlank c = false ∧ c ∉ ['.', '"', '\x60', '[']

instance (part : String) : (mark : Option Sql.QuoteMark) → Decidable (Fits part mark)
  | some _ => inferInstanceAs (Decidable (_ ∉ _))
  | none => decidable_of_iff
      ((part.toList.all fun c => !isBlank c && !(['.', '"', '\x60', '['].contains c)) = true) (by
      simp only [Fits, List.all_eq_true, Bool.and_eq_true, Bool.not_eq_true', List.contains_eq_mem,
        decide_eq_false_iff_not])

/-- A part of a dotted name, how it is written, and the blanks around it. -/
structure WrittenPart where
  part : String
  /-- The marks around the part, if it is not bare. -/
  mark : Option Sql.QuoteMark
  before : List Char
  after : List Char
  fits : Fits part mark
  blank_before : before.all isBlank = true
  blank_after : after.all isBlank = true

namespace WrittenPart

/-- The part with its marks. -/
def spelling (written : WrittenPart) : String :=
  match written.mark with
  | some mark => enclosed mark written.part
  | none => written.part

/-- The part with its marks and the blanks around it. -/
def text (written : WrittenPart) : String :=
  String.ofList (written.before ++ written.spelling.toList ++ written.after)

end WrittenPart

/-- The text of a name whose parts are written in any way. -/
def writtenName (parts : List WrittenPart) : String :=
  ".".intercalate (parts.map (·.text))

/-! ## The reader on a written part -/

section Reading

variable {c close : Char} {part text rest : List Char}

theorem closingFor?_opening (mark : Sql.QuoteMark) :
    closingFor? mark.opening = some mark.closing := by
  cases mark <;> decide

/-- Outside quotes the reader keeps what is not blank. -/
theorem splitFrom_outside (h : ∀ c ∈ text, closingFor? c = none ∧ c ≠ '.') :
    splitFrom none part (text ++ rest) =
      splitFrom none ((text.filter fun c => !isBlank c).reverse ++ part) rest := by
  induction text generalizing part with
  | nil => rfl
  | cons c text ih =>
      obtain ⟨hquote, hdot⟩ := h c List.mem_cons_self
      rw [List.cons_append, splitFrom_cons_of_ne hquote hdot,
        ih fun d hd => h d (List.mem_cons_of_mem c hd)]
      cases hblank : isBlank c <;> simp [hblank]

/-- Inside quotes the reader keeps everything up to the closing quote. -/
theorem splitFrom_inside (h : close ∉ text) :
    splitFrom (some close) part (text ++ close :: rest) =
      splitFrom none (text.reverse ++ part) rest := by
  induction text generalizing part with
  | nil =>
      rw [List.nil_append, splitFrom]
      exact if_pos rfl
  | cons c text ih =>
      rw [List.mem_cons, not_or] at h
      rw [List.cons_append, splitFrom]
      refine (if_neg (Ne.symm h.1)).trans ?_
      rw [ih h.2, List.reverse_cons, List.append_assoc, List.singleton_append]

/-- Of a text between marks that it does not hold, exactly the text is kept. -/
theorem splitFrom_enclosed {mark : Sql.QuoteMark} {body : String} (h : mark.closing ∉ body.toList)
    (rest : List Char) :
    splitFrom none [] ((enclosed mark body).toList ++ rest) =
      splitFrom none body.toList.reverse rest := by
  have htext : (enclosed mark body).toList ++ rest =
      mark.opening :: (body.toList ++ mark.closing :: rest) := by simp [enclosed]
  rw [htext, splitFrom, closingFor?_opening]
  simp only [splitFrom_inside h, List.append_nil]

theorem closingFor?_of_isBlank (h : isBlank c = true) : closingFor? c = none := by
  rw [← opensQuote_eq_false_iff]
  by_contra hquote
  rw [isBlank_of_opensQuote c (Bool.not_eq_false _ ▸ hquote)] at h
  cases h

theorem splitFrom_blanks (h : text.all isBlank = true) :
    splitFrom none part (text ++ rest) = splitFrom none part rest := by
  have hnone : (text.filter fun c => !isBlank c) = [] := by
    rw [List.filter_eq_nil_iff]
    intro c hc
    simp [List.all_eq_true.mp h c hc]
  rw [splitFrom_outside, hnone, List.reverse_nil, List.nil_append]
  intro c hc
  have hblank := List.all_eq_true.mp h c hc
  refine ⟨closingFor?_of_isBlank hblank, ?_⟩
  rintro rfl
  exact absurd hblank (by decide)

/-- A bare part is kept as it is. -/
theorem splitFrom_bare {bare : String} (h : Fits bare none) :
    splitFrom none part (bare.toList ++ rest) =
      splitFrom none (bare.toList.reverse ++ part) rest := by
  have hall : (bare.toList.filter fun c => !isBlank c) = bare.toList := by
    rw [List.filter_eq_self]
    intro c hc
    rw [(h c hc).1]
    rfl
  rw [splitFrom_outside, hall]
  intro c hc
  have hmarks := (h c hc).2
  simp only [List.mem_cons, List.not_mem_nil, or_false, not_or] at hmarks
  refine ⟨?_, hmarks.1⟩
  rw [← opensQuote_eq_false_iff, Bool.eq_false_iff, ne_eq, opensQuote_iff]
  exact not_or.mpr ⟨hmarks.2.1, not_or.mpr hmarks.2.2⟩

theorem splitFrom_spelling (written : WrittenPart) (rest : List Char) :
    splitFrom none [] (written.spelling.toList ++ rest) =
      splitFrom none written.part.toList.reverse rest := by
  have hfits := written.fits
  rw [WrittenPart.spelling]
  cases hmark : written.mark with
  | some mark =>
      rw [hmark] at hfits
      exact splitFrom_enclosed hfits rest
  | none =>
      rw [hmark] at hfits
      rw [splitFrom_bare hfits, List.append_nil]

/-- Of a written part exactly the part is kept. -/
theorem splitFrom_text (written : WrittenPart) (rest : List Char) :
    splitFrom none [] (written.text.toList ++ rest) =
      splitFrom none written.part.toList.reverse rest := by
  rw [WrittenPart.text, String.toList_ofList, List.append_assoc, List.append_assoc]
  -- the blanks on both sides go, and the spelling leaves the part
  rw [splitFrom_blanks written.blank_before, splitFrom_spelling]
  exact splitFrom_blanks written.blank_after

end Reading

/-! ## The parts of a written name -/

/-- The parts of a written name are read back. -/
theorem splitName_writtenName {parts : List WrittenPart} (hne : parts ≠ []) :
    splitName (writtenName parts) = parts.map (·.part) := by
  induction parts with
  | nil => exact absurd rfl hne
  | cons written parts ih =>
      have hlast := splitFrom_text written []
      rw [List.append_nil] at hlast
      cases parts with
      | nil => simp [writtenName, splitName, hlast, splitFrom]
      | cons next parts =>
          have hrest := ih (List.cons_ne_nil next parts)
          have hdot : ".".toList = ['.'] := rfl
          have htext : (writtenName (written :: next :: parts)).toList =
              written.text.toList ++ '.' :: (writtenName (next :: parts)).toList := by
            simp [writtenName, String.intercalate_cons_cons]
          rw [splitName, htext, splitFrom_text written]
          -- the reader is outside quotes again, so the dot ends the part
          rw [splitFrom_cons_dot, List.reverse_reverse, String.ofList_toList, List.map_cons,
            ← hrest]
          rfl

/-- However the parts of a name are written, its text has the id of the parts.  So a name that is
given with this text has the id of every reference that was read with these parts. -/
theorem canonical?_writtenName (parts : List WrittenPart) :
    TableId.canonical? (writtenName parts) =
        TableId.ofString? (canonicalName (parts.map (·.part))) ∧
      ∀ reference : Sql.TableReference, reference.parts.map (·.value) = parts.map (·.part) →
        TableId.canonical? (writtenName parts) = TableId.ofString? reference.canonical ∧
        ∀ name : TableName, name.value = writtenName parts →
          name.id? = TableId.ofString? reference.canonical := by
  have hid : TableId.canonical? (writtenName parts) =
      TableId.ofString? (canonicalName (parts.map (·.part))) := by
    by_cases hne : parts = []
    · subst hne
      rfl
    · rw [TableId.canonical?, splitName_writtenName hne]
  refine ⟨hid, fun reference hparts => ?_⟩
  have hreference : TableId.canonical? (writtenName parts) =
      TableId.ofString? reference.canonical := by
    rw [hid, Sql.TableReference.canonical, hparts]
  refine ⟨hreference, fun name hname => ?_⟩
  rw [TableName.id?, hname, hreference]

/-- All styles in one name, with dots and the marks of other styles inside them, an empty part and
blanks around the dots. -/
theorem canonical?_writtenName_mixed :
    let parts : List WrittenPart :=
      [⟨"Raw.\"A\"", some .bracket, [' '], ['\n'], by decide, by decide, by decide⟩,
        ⟨"", none, [], ['\t'], by decide, by decide, by decide⟩,
        ⟨"My [x", some .double, [], [], by decide, by decide, by decide⟩,
        ⟨"T]", none, [], [' '], by decide, by decide, by decide⟩]
    let reference : Sql.TableReference :=
      ⟨[⟨"Raw.\"A\"", true⟩, ⟨"", true⟩, ⟨"My [x", true⟩, ⟨"T]", true⟩]⟩
    let name : TableName := ⟨" [Raw.\"A\"]\n.\t.\"My [x\".T] ", by decide⟩
    name.value = writtenName parts ∧
      TableId.canonical? (writtenName parts) = TableId.ofString? reference.canonical ∧
      name.id? = some ⟨"raw.\"a\".my [x.t]", by decide⟩ := by
  intro parts reference name
  have hname : name.value = writtenName parts := by decide +kernel
  obtain ⟨hreference, hid⟩ := (canonical?_writtenName parts).2 reference rfl
  refine ⟨hname, hreference, ?_⟩
  rw [hid name hname]
  decide +kernel

end TableLineage.Table
