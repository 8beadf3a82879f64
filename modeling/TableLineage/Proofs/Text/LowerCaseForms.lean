import TableLineage.Text.Lowercase

/-!
# Lower-case forms

No code point to which a run of the lower-case mapping leads belongs to a run itself
(`mapsOutside_of_mem`).  So the lower-case form of a text consists of characters that are their own
lower-case forms wherever they stand, and lower case is idempotent (`lowercase_lowercase`).

Every character but `İ` becomes one character (`length_lowerAfter`).  A character that no run covers
or leads to stands in the lower-case form as often as in the text (`countP_lowerAfter`), and only a
capital sigma can be lower-cased in a way that depends on what stands around it
(`lowerAfter_append`).
-/

namespace TableLineage.Text

/-! ## Runs -/

namespace CaseRun

/-- Whether the code points to which a run maps lie outside another run: behind it, before it or,
where the other takes every second code point, between those of the other. -/
def mapsOutside (run other : CaseRun) : Bool :=
  Nat.blt other.last run.lower || Nat.blt (run.lower + (run.last - run.first)) other.first ||
    (other.stride == 2 && (run.stride == 2 || run.first == run.last) &&
      (run.lower + other.first) % 2 == 1)

/-- Whether the code points to which a run maps are those of characters. -/
def mapsToChars (run : CaseRun) : Bool :=
  Nat.blt (run.lower + (run.last - run.first)) 0xD800 ||
    (Nat.blt 0xDFFF run.lower && Nat.blt (run.lower + (run.last - run.first)) 0x110000)

variable {run other : CaseRun} {n : Nat}

theorem covers_iff :
    run.covers n = true ↔ run.first ≤ n ∧ n ≤ run.last ∧ (n - run.first) % run.stride = 0 := by
  simp only [covers, Bool.and_eq_true, decide_eq_true_eq, beq_iff_eq, and_assoc]

theorem not_covers_of_mapsOutside (h : run.mapsOutside other = true) (hn : run.covers n = true) :
    other.covers (run.lower + (n - run.first)) = false := by
  rw [covers_iff] at hn
  rw [Bool.eq_false_iff, ne_eq, covers_iff]
  simp only [mapsOutside, Bool.or_eq_true, Bool.and_eq_true, Nat.blt_eq, beq_iff_eq] at h
  rintro ⟨hfirst, hlast, hstride⟩
  rcases h with (hbehind | hbefore) | ⟨⟨htwo, hrun | hrun⟩, hodd⟩
  · omega
  · omega
  · rw [htwo] at hstride
    rw [hrun] at hn
    omega
  · rw [htwo] at hstride
    omega

theorem isValidChar_of_mapsToChars (h : run.mapsToChars = true) (hn : run.covers n = true) :
    (run.lower + (n - run.first)).isValidChar := by
  rw [covers_iff] at hn
  simp only [mapsToChars, Bool.or_eq_true, Bool.and_eq_true, Nat.blt_eq] at h
  rw [Nat.isValidChar]
  omega

end CaseRun

/-- The code point of `İ`, which no run covers. -/
def dottedCapital : CaseRun :=
  ⟨0x130, 0x130, 1, 0x130⟩

/-- Whether a code point is outside a run and outside the code points to which the run maps. -/
def CaseRun.misses (run : CaseRun) (n : Nat) : Bool :=
  (Nat.blt n run.first || Nat.blt run.last n) &&
    (Nat.blt n run.lower || Nat.blt (run.lower + (run.last - run.first)) n)

/-- No code point to which a run maps is covered by a run, or is that of `İ`. -/
theorem mapsOutside_of_mem :
    ∀ run ∈ caseRuns, ∀ other ∈ dottedCapital :: caseRuns, run.mapsOutside other = true := by
  have hall : (caseRuns.all fun run => (dottedCapital :: caseRuns).all run.mapsOutside) = true := by
    decide +kernel
  intro run hrun
  exact List.all_eq_true.mp (List.all_eq_true.mp hall run hrun)

theorem mapsToChars_of_mem : ∀ run ∈ caseRuns, run.mapsToChars = true := by
  have hall : caseRuns.all CaseRun.mapsToChars = true := by decide +kernel
  exact List.all_eq_true.mp hall

/-! ## Characters -/

/-- Whether a character is its own lower-case form in every context. -/
def IsLower (c : Char) : Prop :=
  c ≠ 'Σ' ∧ c ≠ 'İ' ∧ lowerChar c = c

instance (c : Char) : Decidable (IsLower c) :=
  inferInstanceAs (Decidable (_ ∧ _ ∧ _))

theorem lowerCode_of_not_covered {n : Nat} (h : ∀ run ∈ caseRuns, run.covers n = false) :
    lowerCode n = n := by
  have hnone : caseRuns.find? (·.covers n) = none :=
    List.find?_eq_none.mpr fun run hrun => by rw [h run hrun]; exact Bool.false_ne_true
  rw [lowerCode, hnone]

theorem toNat_lowerChar {c : Char} {run : CaseRun}
    (hfind : caseRuns.find? (·.covers c.toNat) = some run) :
    (lowerChar c).toNat = run.lower + (c.toNat - run.first) := by
  have hcovers : run.covers c.toNat = true := by simpa using List.find?_some hfind
  have hvalid := CaseRun.isValidChar_of_mapsToChars
    (mapsToChars_of_mem run (List.mem_of_find?_eq_some hfind)) hcovers
  rw [lowerChar, lowerCode, hfind, Char.ofNat, dif_pos hvalid]
  rfl

/-- The form to which a run leads is covered by no run. -/
theorem not_covers_lowerChar {c : Char} {run : CaseRun}
    (hfind : caseRuns.find? (·.covers c.toNat) = some run) :
    ∀ other ∈ dottedCapital :: caseRuns, other.covers (lowerChar c).toNat = false := by
  have hcovers : run.covers c.toNat = true := by simpa using List.find?_some hfind
  have hrun := List.mem_of_find?_eq_some hfind
  intro other hother
  rw [toNat_lowerChar hfind]
  exact CaseRun.not_covers_of_mapsOutside (mapsOutside_of_mem run hrun other hother) hcovers

/-- A character other than `Σ` and `İ` is mapped to one that is in lower case. -/
theorem isLower_lowerChar {c : Char} (hsigma : c ≠ 'Σ') (hdotted : c ≠ 'İ') :
    IsLower (lowerChar c) := by
  cases hfind : caseRuns.find? (·.covers c.toNat) with
  | none =>
      -- no run covers the character, so it is its own lower case
      have hself : lowerChar c = c := by
        rw [lowerChar, lowerCode, hfind]
        exact Char.ofNat_toNat c
      rw [hself]
      exact ⟨hsigma, hdotted, hself⟩
  | some run =>
      have houtside := not_covers_lowerChar hfind
      refine ⟨?_, ?_, ?_⟩
      · intro heq
        have hcovered : ∃ other ∈ caseRuns, other.covers 'Σ'.toNat = true := by decide +kernel
        obtain ⟨other, hother, hsigma⟩ := hcovered
        rw [← heq, houtside other (List.mem_cons_of_mem _ hother)] at hsigma
        exact Bool.false_ne_true hsigma
      · intro heq
        have hcovered := houtside dottedCapital List.mem_cons_self
        rw [heq] at hcovered
        exact absurd hcovered (by decide)
      · have hself := lowerCode_of_not_covered fun other hother =>
          houtside other (List.mem_cons_of_mem _ hother)
        rw [lowerChar.eq_def (lowerChar c), hself]
        exact Char.ofNat_toNat _

theorem isLower_of_mem_lowerIn {before after : List Char} {c d : Char}
    (h : d ∈ lowerIn before c after) : IsLower d := by
  rw [lowerIn] at h
  split at h
  · split at h <;>
    · obtain rfl := List.mem_singleton.mp h
      decide +kernel
  · split at h
    · rcases List.mem_cons.mp h with rfl | h
      · decide +kernel
      · obtain rfl := List.mem_singleton.mp h
        decide +kernel
    case isFalse hsigma hdotted =>
      obtain rfl := List.mem_singleton.mp h
      exact isLower_lowerChar hsigma hdotted

/-! ## Texts -/

theorem isLower_of_mem_lowerAfter {before cs : List Char} {d : Char}
    (h : d ∈ lowerAfter before cs) :
    IsLower d := by
  induction cs generalizing before with
  | nil => exact absurd h List.not_mem_nil
  | cons c cs ih =>
      rw [lowerAfter, List.mem_append] at h
      rcases h with h | h
      · exact isLower_of_mem_lowerIn h
      · exact ih h

theorem lowerAfter_eq_self {before cs : List Char} (h : ∀ c ∈ cs, IsLower c) :
    lowerAfter before cs = cs := by
  induction cs generalizing before with
  | nil => rfl
  | cons c cs ih =>
      obtain ⟨hsigma, hdotted, hself⟩ := h c List.mem_cons_self
      have hrest : lowerAfter (c :: before) cs = cs :=
        ih fun d hd => h d (List.mem_cons_of_mem c hd)
      rw [lowerAfter, lowerIn, if_neg hsigma, if_neg hdotted, hself, hrest]
      rfl

/-- Lower case is idempotent. -/
theorem lowercase_lowercase (text : String) : lowercase (lowercase text) = lowercase text := by
  have hself : lowerAfter [] (lowerAfter [] text.toList) = lowerAfter [] text.toList :=
    lowerAfter_eq_self fun _ => isLower_of_mem_lowerAfter
  rw [lowercase, lowercase, String.toList_ofList, hself]

/-- Every character but `İ` becomes one character. -/
theorem length_lowerAfter (before cs : List Char) :
    (lowerAfter before cs).length = cs.length + cs.count 'İ' := by
  induction cs generalizing before with
  | nil => rfl
  | cons c cs ih =>
      have hone : (lowerIn before c cs).length = 1 + if c = 'İ' then 1 else 0 := by
        rw [lowerIn]
        split
        case isTrue hsigma => subst hsigma; split <;> rfl
        case isFalse => split <;> rfl
      rw [lowerAfter, List.length_append, ih, hone, List.length_cons, List.count_cons]
      simp only [beq_iff_eq]
      omega

theorem length_lowercase (text : String) :
    (lowercase text).toList.length = text.toList.length + text.toList.count 'İ' := by
  rw [lowercase, String.toList_ofList, length_lowerAfter]

theorem lowercase_eq_empty_iff {text : String} : lowercase text = "" ↔ text = "" := by
  rw [← String.toList_eq_nil_iff, ← List.length_eq_zero_iff, length_lowercase,
    ← String.toList_eq_nil_iff, ← List.length_eq_zero_iff]
  have hcount := List.count_le_length (a := 'İ') (l := text.toList)
  omega

/-- A text from which characters were left out has a shorter lower-case form. -/
theorem eq_of_sublist_of_length_lowercase {text other : String}
    (h : text.toList.Sublist other.toList)
    (hle : (lowercase other).toList.length ≤ (lowercase text).toList.length) : text = other := by
  rw [length_lowercase, length_lowercase] at hle
  have hlength := h.length_le
  have hcount := h.count_le 'İ'
  exact String.toList_injective (h.eq_of_length (by omega))

/-! ## Characters without case -/

/-- Whether a character has no other case: it is the lower-case form of itself only. -/
def IsUncased (c : Char) : Prop :=
  c ∉ ['Σ', 'σ', 'ς', 'İ', 'i', '\u0307'] ∧ caseRuns.all (fun run => run.misses c.toNat) = true

instance (c : Char) : Decidable (IsUncased c) :=
  inferInstanceAs (Decidable (_ ∧ _))

section Uncased

variable {c d : Char}

theorem CaseRun.not_covers_of_misses {run : CaseRun} {n : Nat} (h : run.misses n = true) :
    run.covers n = false := by
  rw [Bool.eq_false_iff, ne_eq, covers_iff]
  simp only [misses, Bool.and_eq_true, Bool.or_eq_true, Nat.blt_eq] at h
  omega

theorem IsUncased.misses (h : IsUncased c) : ∀ run ∈ caseRuns, run.misses c.toNat = true :=
  List.all_eq_true.mp h.2

theorem IsUncased.lowerChar_eq (h : IsUncased c) : lowerChar c = c := by
  rw [lowerChar, lowerCode_of_not_covered fun run hrun =>
    CaseRun.not_covers_of_misses (h.misses run hrun)]
  exact Char.ofNat_toNat c

/-- A run does not lead to a character without case. -/
theorem IsUncased.lowerChar_eq_iff (h : IsUncased d) : lowerChar c = d ↔ c = d := by
  constructor
  · rintro rfl
    cases hfind : caseRuns.find? (·.covers c.toNat) with
    | none =>
        rw [lowerChar, lowerCode, hfind]
        exact (Char.ofNat_toNat c).symm
    | some run =>
        have hcovers : run.covers c.toNat = true := by simpa using List.find?_some hfind
        have hmisses := h.misses run (List.mem_of_find?_eq_some hfind)
        rw [toNat_lowerChar hfind] at hmisses
        rw [CaseRun.covers_iff] at hcovers
        simp only [CaseRun.misses, Bool.and_eq_true, Bool.or_eq_true, Nat.blt_eq] at hmisses
        omega
  · rintro rfl
    exact h.lowerChar_eq

variable {p : Char → Bool}

theorem countP_lowerIn (hp : ∀ c, p c = true → IsUncased c) (before after : List Char) (c : Char) :
    (lowerIn before c after).countP p = [c].countP p := by
  -- a sigma, a dotted capital and what they become are cased
  have hnot : ∀ d ∈ ['Σ', 'σ', 'ς', 'İ', 'i', '\u0307'], ¬ p d = true := fun d hd h => (hp d h).1 hd
  rw [lowerIn]
  split
  case isTrue hsigma =>
      subst hsigma
      split <;> simp [hnot]
  case isFalse =>
      split
      case isTrue hdotted =>
          subst hdotted
          simp [hnot]
      case isFalse =>
          have hsame : p (lowerChar c) = true ↔ p c = true := by
            constructor
            · intro h
              rwa [(hp _ h).lowerChar_eq_iff.mp rfl]
            · intro h
              rwa [(hp c h).lowerChar_eq]
          rw [List.countP_singleton, List.countP_singleton, Bool.eq_iff_iff.mpr hsame]

/-- Characters without case are neither lost nor made. -/
theorem countP_lowerAfter (hp : ∀ c, p c = true → IsUncased c) (before cs : List Char) :
    (lowerAfter before cs).countP p = cs.countP p := by
  induction cs generalizing before with
  | nil => rfl
  | cons c cs ih => rw [lowerAfter, List.countP_append, countP_lowerIn hp, ih, ← List.countP_append,
      List.singleton_append]

/-- Without a capital sigma what stands before a text does not count. -/
theorem lowerAfter_append {cs : List Char} (h : 'Σ' ∉ cs) (before others after : List Char) :
    lowerAfter before (cs ++ after) =
      lowerAfter others cs ++ lowerAfter (cs.reverse ++ before) after := by
  induction cs generalizing before others with
  | nil => rfl
  | cons c cs ih =>
      rw [List.mem_cons, not_or] at h
      have hhere : lowerIn before c (cs ++ after) = lowerIn others c cs := by
        rw [lowerIn, lowerIn, if_neg (Ne.symm h.1), if_neg (Ne.symm h.1)]
      rw [List.cons_append, lowerAfter, lowerAfter, hhere, ih h.2 (c :: before) (c :: others)]
      simp

end Uncased

end TableLineage.Text
