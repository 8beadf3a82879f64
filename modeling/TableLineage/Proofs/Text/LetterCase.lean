import TableLineage.Table.Name

/-!
# The case of ASCII letters

Lower case sees no difference between a capital ASCII letter and the small one, also where it looks
at the characters around a sigma: both are cased, and neither is case-ignorable.  Neither is blank,
so trimming leaves the same characters.  Hence names whose ASCII letters differ only in case have
the same canonical form (`canonicalName_map_toLower`).

All of this is read off the 26 capital letters (`toLower_invariant`), since every other character is
left alone by `Char.toLower`.
-/

namespace TableLineage

namespace Text

/-- The capital ASCII letters. -/
def capitals : List Char :=
  (List.range 26).map fun i => Char.ofNat (65 + i)

theorem mem_capitals {c : Char} (hfirst : 65 ≤ c.toNat) (hlast : c.toNat ≤ 90) : c ∈ capitals := by
  refine List.mem_map.mpr ⟨c.toNat - 65, List.mem_range.mpr (by omega), ?_⟩
  have hcode : 65 + (c.toNat - 65) = c.toNat := by omega
  rw [hcode, Char.ofNat_toNat]

theorem toLower_eq_self_or_mem (c : Char) : c.toLower = c ∨ c ∈ capitals := by
  by_cases hcapital : 65 ≤ c.toNat ∧ c.toNat ≤ 90
  · exact .inr (mem_capitals hcapital.1 hcapital.2)
  · exact .inl (dif_neg hcapital)

/-- What does not tell the capital letters from the small ones does not see `Char.toLower`. -/
theorem toLower_invariant {β : Type} {f : Char → β}
    (h : capitals.map (fun c => f c.toLower) = capitals.map f) (c : Char) : f c.toLower = f c := by
  rcases toLower_eq_self_or_mem c with hself | hcapital
  · rw [hself]
  · exact List.map_inj_left.mp h c hcapital

theorem toUpper_toLower (c : Char) : c.toLower.toUpper = c.toUpper :=
  toLower_invariant (by decide) c

theorem isBlank_toLower (c : Char) : isBlank c.toLower = isBlank c :=
  toLower_invariant (by decide +kernel) c

theorem lowerChar_toLower (c : Char) : lowerChar c.toLower = lowerChar c :=
  toLower_invariant (by decide +kernel) c

theorem isIgnorable_toLower (c : Char) :
    caseIgnorableRanges.contains c.toLower.toNat = caseIgnorableRanges.contains c.toNat :=
  toLower_invariant (f := fun c => caseIgnorableRanges.contains c.toNat) (by decide +kernel) c

theorem isCased_toLower (c : Char) :
    casedRanges.contains c.toLower.toNat = casedRanges.contains c.toNat :=
  toLower_invariant (f := fun c => casedRanges.contains c.toNat) (by decide +kernel) c

theorem toLower_eq_iff {d : Char}
    (h : capitals.map (fun c => c.toLower == d) = capitals.map fun c => c == d) (c : Char) :
    c.toLower = d ↔ c = d := by
  rw [← beq_iff_eq, toLower_invariant (f := fun c => c == d) h c, beq_iff_eq]

/-! ## Lower case -/

theorem startsCased_map_toLower (cs : List Char) :
    startsCased (cs.map Char.toLower) = startsCased cs := by
  have hdrop : (cs.map Char.toLower).dropWhile (fun c => caseIgnorableRanges.contains c.toNat) =
      (cs.dropWhile fun c => caseIgnorableRanges.contains c.toNat).map Char.toLower := by
    rw [List.dropWhile_map]
    simp only [Function.comp_def, isIgnorable_toLower]
  rw [startsCased, startsCased, hdrop]
  cases cs.dropWhile fun c => caseIgnorableRanges.contains c.toNat with
  | nil => rfl
  | cons c rest => exact isCased_toLower c

theorem lowerIn_toLower (before after : List Char) (c : Char) :
    lowerIn (before.map Char.toLower) c.toLower (after.map Char.toLower) =
      lowerIn before c after := by
  have hsigma : c.toLower = 'Σ' ↔ c = 'Σ' := toLower_eq_iff (by decide +kernel) c
  have hdotted : c.toLower = 'İ' ↔ c = 'İ' := toLower_eq_iff (by decide +kernel) c
  simp only [lowerIn, hsigma, hdotted, startsCased_map_toLower, lowerChar_toLower]

theorem lowerAfter_map_toLower (before cs : List Char) :
    lowerAfter (before.map Char.toLower) (cs.map Char.toLower) = lowerAfter before cs := by
  induction cs generalizing before with
  | nil => rfl
  | cons c cs ih =>
      calc lowerAfter (before.map Char.toLower) ((c :: cs).map Char.toLower)
          = lowerIn before c cs ++
              lowerAfter ((c :: before).map Char.toLower) (cs.map Char.toLower) := by
            rw [List.map_cons, lowerAfter, lowerIn_toLower, List.map_cons]
        _ = lowerIn before c cs ++ lowerAfter (c :: before) cs := by rw [ih]
        _ = lowerAfter before (c :: cs) := by rw [lowerAfter]

theorem toList_toLower (text : String) : text.toLower.toList = text.toList.map Char.toLower :=
  String.toList_map

/-- Two texts differ at most in the case of ASCII letters. -/
def SameUpToCase (text other : String) : Prop :=
  text.toList.map Char.toLower = other.toList.map Char.toLower

instance (text other : String) : Decidable (SameUpToCase text other) :=
  inferInstanceAs (Decidable (_ = _))

theorem SameUpToCase.toLower_eq {text other : String} (h : SameUpToCase text other) :
    text.toLower = other.toLower := by
  apply String.toList_injective
  rw [toList_toLower, toList_toLower, h]

theorem lowercase_toLower (text : String) : lowercase text.toLower = lowercase text := by
  have hsame : lowerAfter [] (text.toList.map Char.toLower) = lowerAfter [] text.toList :=
    lowerAfter_map_toLower [] text.toList
  rw [lowercase, lowercase, toList_toLower, hsame]

/-! ## Trimming and joining -/

theorem trimWhile_map {p : Char → Bool} {f : Char → Char} (h : ∀ c, p (f c) = p c)
    (cs : List Char) : trimWhile p (cs.map f) = (trimWhile p cs).map f := by
  have hp : p ∘ f = p := funext h
  have hdrop : ∀ text : List Char, (text.map f).dropWhile p = (text.dropWhile p).map f := by
    intro text
    rw [List.dropWhile_map, hp]
  rw [trimWhile, trimWhile, hdrop, ← List.map_reverse, hdrop, List.map_reverse]

theorem trim_toLower (text : String) : trim text.toLower = (trim text).toLower := by
  apply String.toList_injective
  calc (trim text.toLower).toList
      = trimWhile isBlank (text.toList.map Char.toLower) := by
        rw [trim, String.toList_ofList, toList_toLower]
    _ = (trimWhile isBlank text.toList).map Char.toLower := trimWhile_map isBlank_toLower _
    _ = (trim text).toLower.toList := by rw [toList_toLower, trim, String.toList_ofList]

theorem toLower_append (first second : String) :
    (first ++ second).toLower = first.toLower ++ second.toLower := by
  apply String.toList_injective
  calc (first ++ second).toLower.toList
      = (first.toList ++ second.toList).map Char.toLower := by
        rw [toList_toLower, String.toList_append]
    _ = first.toLower.toList ++ second.toLower.toList := by
        rw [List.map_append, toList_toLower, toList_toLower]
    _ = (first.toLower ++ second.toLower).toList := by rw [String.toList_append]

theorem intercalate_map_toLower {separator : String} (h : separator.toLower = separator)
    (texts : List String) :
    separator.intercalate (texts.map String.toLower) = (separator.intercalate texts).toLower := by
  induction texts with
  | nil => exact String.toList_injective (toList_toLower "").symm
  | cons first texts ih =>
      cases texts with
      | nil => rfl
      | cons second texts =>
          calc separator.intercalate ((first :: second :: texts).map String.toLower)
              = first.toLower ++ separator ++
                  separator.intercalate ((second :: texts).map String.toLower) :=
                String.intercalate_cons_cons
            _ = (first ++ separator ++ separator.intercalate (second :: texts)).toLower := by
                rw [ih, toLower_append, toLower_append, h]
            _ = (separator.intercalate (first :: second :: texts)).toLower := by
                rw [String.intercalate_cons_cons]

end Text

/-- Names whose letters differ only in case have the same canonical form. -/
theorem Table.canonicalName_map_toLower (parts : List String) :
    canonicalName (parts.map String.toLower) = canonicalName parts := by
  rw [canonicalName, canonicalName, List.map_map]
  simp only [Function.comp_def, Text.trim_toLower, Text.lowercase_toLower]

end TableLineage
