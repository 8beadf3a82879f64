import TableLineage.Proofs.Table.WrittenNames

/-!
# Keys that are read again

A key that is printed is text, and read as a name it is split like any other: what a part had
between quotes stands bare in the key.  So a key is read as itself just if it shows the reader
nothing to take out (`canonical?_value_iff`): it opens no quote, holds no blank, and no piece
between its dots is empty.

```text
name        key       the key, read again
"a b"       a b       ab
"a..b"      a..b      a.b
"[orders]"  [orders]  orders
"a.b"       a.b       a.b
```

Taken as one part, every key is its own key (`canonicalName_canonicalName`): it is in lower case,
and its ends are not blank.  With that the condition is the one on plain parts, for a name of one
part.  Between marks that it does not hold, a key is read as itself in any case
(`canonical?_enclosed`).
-/

namespace TableLineage.Table

open Text

variable {parts : List String} {text : String}

/-! ## Keys as parts -/

theorem isTrimmed_intercalate (h : ∀ part ∈ parts, IsTrimmed isBlank part.toList) :
    IsTrimmed isBlank (".".intercalate parts).toList := by
  induction parts with
  | nil => exact ⟨rfl, rfl⟩
  | cons part parts ih =>
      have hpart := h part List.mem_cons_self
      cases parts with
      | nil => simpa using hpart
      | cons next parts =>
          have hrest := ih fun other hother => h other (List.mem_cons_of_mem part hother)
          rw [String.intercalate_cons_cons, String.toList_append, String.toList_append,
            List.append_assoc]
          exact hpart.join (by decide) hrest

theorem isTrimmed_canonicalName (parts : List String) :
    IsTrimmed isBlank (canonicalName parts).toList := by
  apply isTrimmed_intercalate
  intro key hkey
  obtain ⟨part, -, rfl⟩ := List.mem_map.mp (List.mem_filter.mp hkey).1
  rw [lowercase, String.toList_ofList, trim, String.toList_ofList]
  exact (isTrimmed_trimWhile isBlank _).lowerAfter isUncased_of_isBlank []

theorem trim_canonicalName (parts : List String) :
    trim (canonicalName parts) = canonicalName parts := by
  have htrimmed := isTrimmed_canonicalName parts
  rw [trim, trimWhile_eq_self htrimmed.head htrimmed.last, String.ofList_toList]

/-- A key is the key of itself as one part. -/
theorem canonicalName_canonicalName (parts : List String) :
    canonicalName [canonicalName parts] = canonicalName parts := by
  apply canonicalName_eq_iff.mpr
  calc [canonicalName parts].flatMap endedPart
      = ended (lowercase (trim (canonicalName parts))) := List.flatMap_singleton ..
    _ = ended (canonicalName parts) := by rw [trim_canonicalName, lowercase_canonicalName]
    _ = parts.flatMap endedPart := ended_canonicalName parts

/-! ## Keys as names -/

/-- A name shows the reader nothing to take out. -/
structure ReadsAsItself (text : String) : Prop where
  /-- No quote is opened. -/
  unquoted : ∀ c ∈ text.toList, closingFor? c = none
  unspaced : ∀ c ∈ text.toList, isBlank c = false
  /-- No piece between dots is empty. -/
  pieces : "" ∉ splitAtChar '.' text

instance (text : String) : Decidable (ReadsAsItself text) :=
  decidable_of_iff
    ((text.toList.all fun c => (closingFor? c).isNone && !isBlank c) = true ∧
      (splitAtChar '.' text).contains "" = false) (by
    simp only [List.all_eq_true, Bool.and_eq_true, Option.isNone_iff_eq_none, Bool.not_eq_true',
      List.contains_eq_mem, decide_eq_false_iff_not]
    exact ⟨fun ⟨hchars, hpieces⟩ =>
      ⟨fun c hc => (hchars c hc).1, fun c hc => (hchars c hc).2, hpieces⟩,
      fun h => ⟨fun c hc => ⟨h.unquoted c hc, h.unspaced c hc⟩, h.pieces⟩⟩)

/-- A key is plain, taken as one part, just if it reads as itself. -/
theorem isPlain_canonicalName_iff (hne : canonicalName parts ≠ "") :
    IsPlain (canonicalName parts) ↔ ReadsAsItself (canonicalName parts) := by
  have htrim := trim_canonicalName parts
  have hsigma : 'Σ' ∉ (canonicalName parts).toList := fun hmem =>
    (isLower_of_mem_canonicalName hmem).1 rfl
  constructor
  · intro h
    exact ⟨h.unquoted, htrim ▸ h.unspaced, htrim ▸ h.pieces (htrim.symm ▸ hne)⟩
  · intro h
    refine ⟨h.unquoted, htrim.symm ▸ h.unspaced, fun _ => htrim.symm ▸ h.pieces, ?_⟩
    rw [htrim]
    exact intercalate_lowercase hsigma

/-- A key that is split has the same key just if it reads as itself. -/
theorem canonicalName_splitName_canonicalName_iff (hne : canonicalName parts ≠ "") :
    canonicalName (splitName (canonicalName parts)) = canonicalName parts ↔
      ReadsAsItself (canonicalName parts) := by
  have hone := canonicalName_splitName_iff [canonicalName parts]
  rw [String.intercalate_singleton, canonicalName_canonicalName, List.forall_mem_singleton,
    isPlain_canonicalName_iff hne] at hone
  exact hone

/-- An id with a key as its text is read off its text just if the text reads as itself. -/
theorem canonical?_value_iff {id : TableId} (hkey : id.value = canonicalName parts) :
    TableId.canonical? id.value = some id ↔ ReadsAsItself id.value := by
  have hne : canonicalName parts ≠ "" := hkey ▸ id.nonempty
  rw [TableId.canonical?, ← TableId.ofString?_value, TableId.ofString?_inj, hkey,
    canonicalName_splitName_canonicalName_iff hne]

/-- Between marks that it does not hold, the text of an id is read as the id. -/
theorem canonical?_enclosed {id : TableId} (hkey : id.value = canonicalName parts)
    (mark : Sql.QuoteMark) (hmark : mark.closing ∉ id.value.toList) :
    TableId.canonical? (enclosed mark id.value) = some id := by
  have hparts : splitName (enclosed mark id.value) = [id.value] := by
    have hread := splitFrom_enclosed hmark []
    rw [List.append_nil] at hread
    rw [splitName, hread, splitFrom, List.reverse_reverse, String.ofList_toList]
  rw [TableId.canonical?, hparts, hkey, canonicalName_canonicalName, ← hkey,
    TableId.ofString?_value]

end TableLineage.Table
