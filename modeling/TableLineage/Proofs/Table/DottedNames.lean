import TableLineage.Proofs.Text.LowerCaseForms
import TableLineage.Proofs.Text.Search
import TableLineage.Proofs.Text.Trimming
import TableLineage.Table.Name

/-!
# Names that are read from dotted text

Parts can become a key in two ways.  A reference hands them on as a list, and a file name writes
them as one text with dots between, which is split again.  The two keys agree just if every part is
plain (`canonicalName_splitName_iff`): the text of a plain part has no quotes, no blanks but at its
ends, and no empty piece between dots, and its pieces can be lower-cased one by one, as those of any
text without a capital sigma can (`intercalate_lowercase`).  Parts that are not plain, and their
keys:

```text
part        split       as a whole
a..b        a.b         a..b
[orders]    orders      [orders]
my table    mytable     my table
```

Written with a dot after every part that is not empty, a key is the concatenation of what each part
gives (`ended_canonicalName`), so that keys can be compared part by part.  Two counts are the whole
argument for necessity.  The first quote is lost when the text is split, and lower case neither
makes nor loses quotes.  Without quotes no part gives more characters when it is split than when it
is taken as a whole, so if the keys agree, each part gives the same both ways
(`flatMap_eq_iff_of_length_le`).
-/

namespace TableLineage.Table

open Text

/-! ## Keys part by part -/

/-- The text with a dot after it; nothing for the empty text. -/
def ended (text : String) : List Char :=
  if text = "" then [] else text.toList ++ ['.']

/-- What a part gives to a key. -/
def endedPart (part : String) : List Char :=
  ended (lowercase (trim part))

theorem ended_of_ne_empty {text : String} (h : text ≠ "") : ended text = text.toList ++ ['.'] :=
  if_neg h

theorem ended_eq_nil_iff {text : String} : ended text = [] ↔ text = "" := by
  rw [ended]
  split <;> simp_all

theorem ended_inj {text other : String} : ended text = ended other ↔ text = other := by
  refine ⟨fun h => ?_, congrArg ended⟩
  by_cases hempty : text = ""
  · rw [ended_eq_nil_iff.mpr hempty, eq_comm, ended_eq_nil_iff] at h
    rw [hempty, h]
  · have hother : other ≠ "" := by
      intro hother
      rw [ended_eq_nil_iff.mpr hother, ended_eq_nil_iff] at h
      exact hempty h
    rw [ended_of_ne_empty hempty, ended_of_ne_empty hother, List.append_cancel_right_eq] at h
    exact String.toList_injective h

theorem ended_intercalate {parts : List String} (h : ∀ part ∈ parts, part ≠ "") :
    ended (".".intercalate parts) = parts.flatMap ended := by
  induction parts with
  | nil => rfl
  | cons part parts ih =>
      have hpart := h part List.mem_cons_self
      have hrest := ih fun other hother => h other (List.mem_cons_of_mem part hother)
      by_cases hnil : parts = []
      · simp [hnil]
      · have hne : ".".intercalate parts ≠ "" := by
          intro hempty
          rw [hempty, eq_comm, ended_eq_nil_iff.mpr rfl, List.flatMap_eq_nil_iff] at hrest
          obtain ⟨other, hother⟩ := List.exists_mem_of_ne_nil parts hnil
          exact h other (List.mem_cons_of_mem part hother)
            (ended_eq_nil_iff.mp (hrest other hother))
        calc ended (".".intercalate (part :: parts))
            = part.toList ++ ['.'] ++ ((".".intercalate parts).toList ++ ['.']) := by
              rw [String.intercalate_cons_of_ne_nil hnil, ended_of_ne_empty (by simp [hpart])]
              simp
          _ = ended part ++ ended (".".intercalate parts) := by
              rw [ended_of_ne_empty hpart, ended_of_ne_empty hne]
          _ = (part :: parts).flatMap ended := by rw [hrest, List.flatMap_cons]

theorem flatMap_ended_filter (texts : List String) :
    (texts.filter (· != "")).flatMap ended = texts.flatMap ended := by
  induction texts with
  | nil => rfl
  | cons text texts ih =>
      by_cases hempty : text = ""
      · rw [List.filter_cons_of_neg (by simp [hempty]), ih, List.flatMap_cons,
          ended_eq_nil_iff.mpr hempty, List.nil_append]
      · rw [List.filter_cons_of_pos (by simp [hempty]), List.flatMap_cons, List.flatMap_cons, ih]

/-- A key is what its parts give. -/
theorem ended_canonicalName (parts : List String) :
    ended (canonicalName parts) = parts.flatMap endedPart := by
  rw [canonicalName, ended_intercalate (by simp), flatMap_ended_filter, List.flatMap_map]
  rfl

theorem canonicalName_eq_iff {parts others : List String} :
    canonicalName parts = canonicalName others ↔
      parts.flatMap endedPart = others.flatMap endedPart := by
  rw [← ended_inj, ended_canonicalName, ended_canonicalName]

theorem isLower_of_mem_canonicalName {parts : List String} {c : Char}
    (hc : c ∈ (canonicalName parts).toList) : IsLower c := by
  have hended : c ∈ parts.flatMap endedPart := by
    rw [← ended_canonicalName, ended]
    split
    case isTrue hempty => rw [hempty] at hc; exact absurd hc List.not_mem_nil
    case isFalse => exact List.mem_append_left _ hc
  obtain ⟨part, -, hc⟩ := List.mem_flatMap.mp hended
  rw [endedPart, ended] at hc
  split at hc
  · exact absurd hc List.not_mem_nil
  · rcases List.mem_append.mp hc with hc | hc
    · rw [lowercase, String.toList_ofList] at hc
      exact isLower_of_mem_lowerAfter hc
    · obtain rfl := List.mem_singleton.mp hc
      decide +kernel

/-- A key is in lower case. -/
theorem lowercase_canonicalName (parts : List String) :
    lowercase (canonicalName parts) = canonicalName parts := by
  rw [lowercase, lowerAfter_eq_self fun c => isLower_of_mem_canonicalName, String.ofList_toList]

/-! ## Splitting text without quotes -/

section Splitting

variable {part text rest : List Char}

theorem closingFor?_dot : closingFor? '.' = none := by
  decide

theorem splitFrom_cons_dot (part rest : List Char) :
    splitFrom none part ('.' :: rest) = String.ofList part.reverse :: splitFrom none [] rest := by
  rw [splitFrom, closingFor?_dot]
  exact if_pos rfl

/-- Outside quotes a character other than a dot is kept, unless it is blank. -/
theorem splitFrom_cons_of_ne {c : Char} (hquote : closingFor? c = none) (hdot : c ≠ '.') :
    splitFrom none part (c :: rest) =
      splitFrom none ([c].filter (fun c => !isBlank c) ++ part) rest := by
  rw [splitFrom, hquote]
  refine (if_neg hdot).trans ?_
  cases hblank : isBlank c <;> simp [hblank]

/-- A dot after text without quotes ends a part. -/
theorem splitFrom_append (h : ∀ c ∈ text, closingFor? c = none) (part rest : List Char) :
    splitFrom none part (text ++ '.' :: rest) =
      splitFrom none part text ++ splitFrom none [] rest := by
  induction text generalizing part with
  | nil => exact splitFrom_cons_dot part rest
  | cons c text ih =>
      have hquote := h c List.mem_cons_self
      have hrest := fun next => ih (fun d hd => h d (List.mem_cons_of_mem c hd)) next
      rw [List.cons_append]
      by_cases hdot : c = '.'
      · subst hdot
        rw [splitFrom_cons_dot, splitFrom_cons_dot, hrest, List.cons_append]
      · rw [splitFrom_cons_of_ne hquote hdot, splitFrom_cons_of_ne hquote hdot, hrest]

theorem beq_dot_eq_false (hpart : '.' ∉ part) : ∀ d ∈ part.reverse, (d == '.') = false := by
  intro d hd
  rw [beq_eq_false_iff_ne]
  rintro rfl
  exact hpart (List.mem_reverse.mp hd)

/-- Text without quotes is split at its dots, and its blanks are left out. -/
theorem splitFrom_eq_splitOnP (h : ∀ c ∈ text, closingFor? c = none) (hpart : '.' ∉ part) :
    splitFrom none part text =
      (splitOnP (· == '.') (part.reverse ++ text.filter fun c => !isBlank c)).map
        String.ofList := by
  induction text generalizing part with
  | nil =>
      rw [splitFrom, List.filter_nil, List.append_nil, splitOnP_eq,
        List.splitOnP_eq_singleton (beq_dot_eq_false hpart), List.map_singleton]
  | cons c text ih =>
      have hquote := h c List.mem_cons_self
      have hrest := fun d hd => h d (List.mem_cons_of_mem c hd)
      by_cases hdot : c = '.'
      · subst hdot
        have hblank : isBlank '.' = false := by decide
        -- a dot ends the part on both sides
        rw [splitFrom_cons_dot, ih hrest List.not_mem_nil,
          List.filter_cons_of_pos (by simp [hblank]),
          splitOnP_append_cons (beq_dot_eq_false hpart) rfl]
        rfl
      · -- any other character goes to the part, unless it is blank
        have hnext : '.' ∉ [c].filter (fun c => !isBlank c) ++ part := by
          simp [hpart, Ne.symm hdot]
        have hkept : ([c].filter fun c => !isBlank c).reverse = [c].filter fun c => !isBlank c := by
          cases hblank : isBlank c <;> simp [hblank]
        rw [splitFrom_cons_of_ne hquote hdot, ih hrest hnext, List.reverse_append, hkept,
          List.append_assoc, ← List.filter_append, List.singleton_append]

end Splitting

/-- The text without its blanks. -/
def squeezed (text : String) : String :=
  String.ofList (text.toList.filter fun c => !isBlank c)

theorem splitName_eq_splitAtChar {text : String} (h : ∀ c ∈ text.toList, closingFor? c = none) :
    splitName text = splitAtChar '.' (squeezed text) := by
  rw [splitName, splitFrom_eq_splitOnP h List.not_mem_nil, splitAtChar, squeezed,
    String.toList_ofList]
  rfl

/-- Parts without quotes, written with dots between, are split one by one. -/
theorem splitName_intercalate {parts : List String} (hne : parts ≠ [])
    (h : ∀ part ∈ parts, ∀ c ∈ part.toList, closingFor? c = none) :
    splitName (".".intercalate parts) = parts.flatMap splitName := by
  induction parts with
  | nil => exact absurd rfl hne
  | cons part parts ih =>
      cases parts with
      | nil => simp
      | cons next parts =>
          have hpart := h part List.mem_cons_self
          have hrest := ih (List.cons_ne_nil next parts) fun other hother =>
            h other (List.mem_cons_of_mem part hother)
          calc splitName (".".intercalate (part :: next :: parts))
              = splitFrom none []
                  (part.toList ++ '.' :: (".".intercalate (next :: parts)).toList) := by
                simp [splitName, String.intercalate_cons_cons]
            _ = splitName part ++ splitName (".".intercalate (next :: parts)) := by
                rw [splitFrom_append hpart, splitName, splitName]
            _ = (part :: next :: parts).flatMap splitName := by
                rw [hrest]
                rfl

/-! ## Quotes are lost -/

/-- Whether a character opens a quote. -/
def opensQuote (c : Char) : Bool :=
  (closingFor? c).isSome

section Quotes

variable {c : Char}

theorem opensQuote_eq_false_iff : opensQuote c = false ↔ closingFor? c = none := by
  rw [opensQuote, Option.isSome_eq_false_iff, Option.isNone_iff_eq_none]

theorem opensQuote_iff : opensQuote c = true ↔ c = '"' ∨ c = '\x60' ∨ c = '[' := by
  unfold opensQuote closingFor?
  split
  · simp_all
  · split
    · simp_all
    · split <;> simp_all

theorem isUncased_of_opensQuote (c : Char) (h : opensQuote c = true) : IsUncased c := by
  rcases opensQuote_iff.mp h with rfl | rfl | rfl <;> decide +kernel

theorem isBlank_of_opensQuote (c : Char) (h : opensQuote c = true) : isBlank c = false := by
  rcases opensQuote_iff.mp h with rfl | rfl | rfl <;> decide

theorem opensQuote_dot : opensQuote '.' = false := by
  decide

/-- A part gives its quotes to the key. -/
theorem countP_endedPart (part : String) :
    (endedPart part).countP opensQuote = part.toList.countP opensQuote := by
  have hended : ∀ text, (ended text).countP opensQuote = text.toList.countP opensQuote := by
    intro text
    rw [ended]
    split
    case isTrue hempty => rw [hempty]; rfl
    case isFalse => rw [List.countP_append]; rfl
  calc (endedPart part).countP opensQuote
      = (lowercase (trim part)).toList.countP opensQuote := by rw [endedPart, hended]
    _ = (trim part).toList.countP opensQuote := by
        rw [lowercase, String.toList_ofList, countP_lowerAfter isUncased_of_opensQuote]
    _ = part.toList.countP opensQuote := by
        rw [trim, String.toList_ofList, countP_trimWhile isBlank_of_opensQuote]

theorem countP_flatMap_endedPart (parts : List String) :
    (parts.flatMap endedPart).countP opensQuote =
      (parts.flatMap String.toList).countP opensQuote := by
  simp only [List.countP_flatMap, Function.comp_def, countP_endedPart]

theorem countP_intercalate (parts : List String) :
    (".".intercalate parts).toList.countP opensQuote =
      (parts.flatMap String.toList).countP opensQuote := by
  induction parts with
  | nil => rfl
  | cons part parts ih =>
      by_cases hnil : parts = []
      · simp [hnil]
      · rw [String.intercalate_cons_of_ne_nil hnil, List.flatMap_cons, List.countP_append, ← ih]
        simp [opensQuote_dot]

/-- The parts of a text are made of its characters, in order. -/
theorem splitFrom_sublist (closing : Option Char) (part text : List Char) :
    ((splitFrom closing part text).flatMap String.toList).Sublist (part.reverse ++ text) := by
  induction text generalizing closing part with
  | nil =>
      rw [splitFrom, List.flatMap_singleton, String.toList_ofList, List.append_nil]
  | cons c rest ih =>
      -- a character is either left out or put to the part
      have hskip := fun next => (ih next part).trans
        ((List.sublist_cons_self c rest).append_left part.reverse)
      have hkeep := fun next => ih next (c :: part)
      simp only [List.reverse_cons, List.append_assoc, List.singleton_append] at hkeep
      cases closing with
      | some close =>
          rw [splitFrom]
          split
          · exact hskip none
          · exact hkeep (some close)
      | none =>
          rw [splitFrom]
          split
          · exact hskip _
          · split
            · rw [List.flatMap_cons, String.toList_ofList]
              -- the dot ends the part, which is given out as it stands
              exact ((ih none []).trans (List.sublist_cons_self c rest)).append_left part.reverse
            · split
              · exact hskip none
              · exact hkeep none

/-- The first quote of a text is lost. -/
theorem countP_splitFrom_lt (part : List Char) {text : List Char} (hc : c ∈ text)
    (hquote : opensQuote c = true) :
    ((splitFrom none part text).flatMap String.toList).countP opensQuote <
      part.countP opensQuote + text.countP opensQuote := by
  induction text generalizing part with
  | nil => exact absurd hc List.not_mem_nil
  | cons d rest ih =>
      cases hclosing : closingFor? d with
      | some close =>
          -- the first opening quote is left out, and nothing behind it is added
          have hle := (splitFrom_sublist (some close) part rest).countP_le (p := opensQuote)
          have hopens : opensQuote d = true := by rw [opensQuote, hclosing]; rfl
          rw [List.countP_append, List.countP_reverse] at hle
          rw [splitFrom, hclosing, List.countP_cons_of_pos hopens]
          exact Nat.lt_succ_of_le hle
      | none =>
          have hopens : opensQuote d = false := opensQuote_eq_false_iff.mpr hclosing
          have hrest : c ∈ rest := by
            refine (List.mem_cons.mp hc).resolve_left ?_
            rintro rfl
            rw [hopens] at hquote
            cases hquote
          rw [List.countP_cons_of_neg (by simp [hopens])]
          by_cases hdot : d = '.'
          · subst hdot
            have hlt := ih [] hrest
            rw [splitFrom_cons_dot, List.flatMap_cons, List.countP_append, String.toList_ofList,
              List.countP_reverse]
            exact Nat.add_lt_add_left (by simpa using hlt) _
          · have hkept : ([d].filter fun c => !isBlank c).countP opensQuote = 0 := by
              cases hblank : isBlank d <;> simp [hblank, hopens]
            have hlt := ih ([d].filter (fun c => !isBlank c) ++ part) hrest
            rwa [List.countP_append, hkept, Nat.zero_add,
              ← splitFrom_cons_of_ne hclosing hdot] at hlt

/-- If a key is read back from its text, no part has a quote. -/
theorem unquoted_of_canonicalName_eq {parts : List String}
    (h : canonicalName (splitName (".".intercalate parts)) = canonicalName parts) :
    ∀ part ∈ parts, ∀ c ∈ part.toList, closingFor? c = none := by
  intro part hpart c hc
  rw [← opensQuote_eq_false_iff]
  by_contra hquote
  rw [Bool.not_eq_false] at hquote
  have hpos : 0 < (parts.flatMap String.toList).countP opensQuote :=
    List.countP_pos_iff.mpr ⟨c, List.mem_flatMap.mpr ⟨part, hpart, hc⟩, hquote⟩
  rw [← countP_intercalate] at hpos
  obtain ⟨d, hd, hopens⟩ := List.countP_pos_iff.mp hpos
  have hlost := countP_splitFrom_lt [] hd hopens
  have hkept := congrArg (List.countP opensQuote) (canonicalName_eq_iff.mp h)
  rw [countP_flatMap_endedPart, countP_flatMap_endedPart, splitName] at hkept
  rw [hkept, countP_intercalate, List.countP_nil, Nat.zero_add] at hlost
  exact Nat.lt_irrefl _ hlost

end Quotes

/-! ## The lengths of parts -/

section Lengths

/-- What the pieces of a text between dots give to a key. -/
def endedPieces (text : String) : List Char :=
  (splitAtChar '.' text).flatMap fun piece => ended (lowercase piece)

theorem length_ended_lowercase (piece : List Char) :
    (ended (lowercase (String.ofList piece))).length + (if piece = [] then 1 else 0) =
      (lowerAfter [] piece).length + 1 := by
  by_cases hempty : piece = []
  · subst hempty
    rfl
  · have hne : lowercase (String.ofList piece) ≠ "" := by
      rw [ne_eq, lowercase_eq_empty_iff]
      simpa using hempty
    have htext : (lowercase (String.ofList piece)).toList = lowerAfter [] piece := by
      rw [lowercase, String.toList_ofList, String.toList_ofList]
    rw [ended_of_ne_empty hne, htext, if_neg hempty]
    rw [List.length_append, List.length_singleton, Nat.add_zero]

theorem length_flatMap_ended (pieces : List (List Char)) :
    ((pieces.map String.ofList).flatMap fun piece => ended (lowercase piece)).length +
        (pieces.map String.ofList).count "" =
      (pieces.flatMap fun piece => lowerAfter [] piece ++ ['.']).length := by
  induction pieces with
  | nil => rfl
  | cons piece pieces ih =>
      have hpiece := length_ended_lowercase piece
      simp only [List.map_cons, List.flatMap_cons, List.length_append, List.count_cons, beq_iff_eq,
        String.ofList_eq_empty_iff, List.length_singleton] at ih ⊢
      omega

/-- With a dot after each, the pieces of a text are by one dot longer than the text. -/
theorem length_flatMap_splitOnP (text : List Char) :
    ((splitOnP (· == '.') text).flatMap fun piece => lowerAfter [] piece ++ ['.']).length =
      (lowerAfter [] text).length + 1 := by
  induction text with
  | nil => rfl
  | cons c text ih =>
      obtain ⟨first, others, heq, -, -⟩ := splitOnP_eq_cons (· == '.') text
      rw [heq] at ih
      rw [splitOnP, heq]
      simp only [List.flatMap_cons, List.length_append, length_lowerAfter,
        List.length_singleton] at ih
      split
      case isTrue hdot =>
          obtain rfl := eq_of_beq hdot
          -- the dot between two pieces is counted with the piece before it
          have hcount : ('.' :: text).count 'İ' = text.count 'İ' :=
            List.count_cons_of_ne (by decide)
          simp only [List.flatMap_cons, List.length_append, length_lowerAfter, List.length_cons,
            List.length_nil, List.count_nil, hcount]
          omega
      case isFalse =>
          -- the character lengthens the first piece by what it lengthens the text
          simp only [List.flatMap_cons, List.length_append, length_lowerAfter, List.length_cons,
            List.length_nil, List.count_cons]
          omega

/-- Each empty piece costs the key the dot that is written after it. -/
theorem length_endedPieces (text : String) :
    (endedPieces text).length + (splitAtChar '.' text).count "" =
      (lowercase text).toList.length + 1 := by
  calc (endedPieces text).length + (splitAtChar '.' text).count ""
      = ((splitOnP (· == '.') text.toList).flatMap fun piece =>
          lowerAfter [] piece ++ ['.']).length := length_flatMap_ended _
    _ = (lowerAfter [] text.toList).length + 1 := length_flatMap_splitOnP text.toList
    _ = (lowercase text).toList.length + 1 := by rw [lowercase, String.toList_ofList]

end Lengths

/-! ## Plain parts -/

/-- A part gives the same to a key, split or as a whole. -/
structure IsPlain (part : String) : Prop where
  /-- No quote is opened. -/
  unquoted : ∀ c ∈ part.toList, closingFor? c = none
  /-- Blanks are at the ends. -/
  unspaced : ∀ c ∈ (trim part).toList, isBlank c = false
  /-- No piece between dots is empty. -/
  pieces : trim part ≠ "" → "" ∉ splitAtChar '.' (trim part)
  /-- The pieces can be lower-cased one by one. -/
  lower : ".".intercalate ((splitAtChar '.' (trim part)).map lowercase) = lowercase (trim part)

instance (part : String) : Decidable (IsPlain part) :=
  decidable_of_iff
    ((part.toList.all fun c => (closingFor? c).isNone) = true ∧
      ((trim part).toList.all fun c => !isBlank c) = true ∧
      (trim part ≠ "" → (splitAtChar '.' (trim part)).contains "" = false) ∧
      ".".intercalate ((splitAtChar '.' (trim part)).map lowercase) = lowercase (trim part)) (by
    simp only [List.all_eq_true, Option.isNone_iff_eq_none, Bool.not_eq_true', List.contains_eq_mem,
      decide_eq_false_iff_not]
    exact ⟨fun ⟨hunquoted, hunspaced, hpieces, hlower⟩ => ⟨hunquoted, hunspaced, hpieces, hlower⟩,
      fun h => ⟨h.unquoted, h.unspaced, h.pieces, h.lower⟩⟩)

section Plain

variable {part text : String}

theorem squeezed_eq (part : String) :
    squeezed part = String.ofList ((trim part).toList.filter fun c => !isBlank c) := by
  rw [squeezed, trim, String.toList_ofList, filter_trimWhile]

theorem squeezed_sublist (part : String) : (squeezed part).toList.Sublist (trim part).toList := by
  rw [squeezed_eq, String.toList_ofList]
  exact List.filter_sublist

theorem squeezed_eq_trim_iff : squeezed part = trim part ↔
    ∀ c ∈ (trim part).toList, isBlank c = false := by
  rw [← String.toList_inj, squeezed_eq, String.toList_ofList, List.filter_eq_self]
  simp only [Bool.not_eq_true']

/-- Leaving out blanks makes a text shorter, and its lower-case form too. -/
theorem length_lowercase_squeezed_le (part : String) :
    (lowercase (squeezed part)).toList.length ≤ (lowercase (trim part)).toList.length := by
  rw [length_lowercase, length_lowercase]
  exact Nat.add_le_add (squeezed_sublist part).length_le ((squeezed_sublist part).count_le 'İ')

theorem squeezed_eq_trim (h : (lowercase (trim part)).toList.length ≤
    (lowercase (squeezed part)).toList.length) : squeezed part = trim part :=
  eq_of_sublist_of_length_lowercase (squeezed_sublist part) h

/-- A part without quotes gives its pieces to the key if it is split. -/
theorem flatMap_splitName (h : ∀ c ∈ part.toList, closingFor? c = none) :
    (splitName part).flatMap endedPart = endedPieces (squeezed part) := by
  rw [splitName_eq_splitAtChar h, endedPieces]
  refine List.flatMap_congr fun piece hpiece => ?_
  rw [endedPart, trim_eq_self]
  intro c hc
  obtain ⟨chars, hchars, rfl⟩ := List.mem_map.mp hpiece
  rw [String.toList_ofList] at hc
  have hmem := (infix_of_mem_splitOnP hchars).subset hc
  rw [squeezed, String.toList_ofList, List.mem_filter] at hmem
  simpa using hmem.2

theorem endedPart_of_trim_eq_empty (h : trim part = "") : endedPart part = [] := by
  rw [endedPart, h]
  rfl

theorem squeezed_of_trim_eq_empty (h : trim part = "") : squeezed part = "" := by
  rw [squeezed_eq, h]
  rfl

theorem length_endedPart (h : trim part ≠ "") :
    (endedPart part).length = (lowercase (trim part)).toList.length + 1 := by
  rw [endedPart, ended_of_ne_empty (mt lowercase_eq_empty_iff.mp h), List.length_append,
    List.length_singleton]

/-- Splitting does not make a part longer. -/
theorem length_flatMap_splitName_le (h : ∀ c ∈ part.toList, closingFor? c = none) :
    ((splitName part).flatMap endedPart).length ≤ (endedPart part).length := by
  rw [flatMap_splitName h]
  by_cases hempty : trim part = ""
  · rw [squeezed_of_trim_eq_empty hempty, endedPart_of_trim_eq_empty hempty]
    rfl
  · have hlength := length_endedPieces (squeezed part)
    have hle := length_lowercase_squeezed_le part
    rw [length_endedPart hempty]
    omega

/-- Pieces that are not empty and can be lower-cased one by one make the lower-case text. -/
theorem endedPieces_eq_iff (h : "" ∉ splitAtChar '.' text) :
    endedPieces text = ended (lowercase text) ↔
      ".".intercalate ((splitAtChar '.' text).map lowercase) = lowercase text := by
  have hpieces : ∀ piece ∈ (splitAtChar '.' text).map lowercase, piece ≠ "" := by
    intro piece hpiece hempty
    obtain ⟨original, horiginal, rfl⟩ := List.mem_map.mp hpiece
    exact h (lowercase_eq_empty_iff.mp hempty ▸ horiginal)
  rw [← ended_inj, ended_intercalate hpieces, List.flatMap_map, endedPieces]

theorem lowerAfter_intercalate {pieces : List (List Char)} (h : ∀ piece ∈ pieces, 'Σ' ∉ piece)
    (before : List Char) :
    lowerAfter before (['.'].intercalate pieces) =
      ['.'].intercalate (pieces.map (lowerAfter [])) := by
  induction pieces generalizing before with
  | nil => rfl
  | cons piece pieces ih =>
      have hpiece := h piece List.mem_cons_self
      cases pieces with
      | nil =>
          -- one piece: only a final sigma looks at what stands before
          have halone := lowerAfter_append hpiece before [] []
          rw [List.append_nil, lowerAfter, List.append_nil] at halone
          simpa using halone
      | cons next pieces =>
          have hdot : ∀ before after, lowerAfter before ('.' :: after) =
              '.' :: lowerAfter ('.' :: before) after := by
            intro before after
            have hself : lowerChar '.' = '.' := by decide +kernel
            rw [lowerAfter, lowerIn, if_neg (by decide), if_neg (by decide), hself]
            rfl
          have hrest := ih (fun other hother => h other (List.mem_cons_of_mem piece hother))
          have hsplit := lowerAfter_append hpiece before []
          calc lowerAfter before (['.'].intercalate (piece :: next :: pieces))
              = lowerAfter before (piece ++ '.' :: ['.'].intercalate (next :: pieces)) := by
                simp [List.intercalate_cons_cons]
            _ = lowerAfter [] piece ++ lowerAfter (piece.reverse ++ before)
                  ('.' :: ['.'].intercalate (next :: pieces)) := by
                simpa using hsplit ('.' :: ['.'].intercalate (next :: pieces))
            _ = lowerAfter [] piece ++
                  '.' :: ['.'].intercalate ((next :: pieces).map (lowerAfter [])) := by
                rw [hdot, hrest]
            _ = ['.'].intercalate ((piece :: next :: pieces).map (lowerAfter [])) := by
                simp [List.intercalate_cons_cons]

/-- The pieces of a text without a capital sigma can be lower-cased one by one. -/
theorem intercalate_lowercase (h : 'Σ' ∉ text.toList) :
    ".".intercalate ((splitAtChar '.' text).map lowercase) = lowercase text := by
  -- the pieces are parts of the text, so none holds a sigma
  have hpieces : ∀ piece ∈ splitOnP (· == '.') text.toList, 'Σ' ∉ piece :=
    fun piece hpiece hmem => h ((infix_of_mem_splitOnP hpiece).subset hmem)
  have hjoined : ['.'].intercalate (splitOnP (· == '.') text.toList) = text.toList := by
    rw [splitOnP_eq]
    exact List.intercalate_splitOn '.'
  have hlower : (lowercase text).toList =
      ['.'].intercalate ((splitOnP (· == '.') text.toList).map (lowerAfter [])) := by
    rw [lowercase, String.toList_ofList, ← lowerAfter_intercalate hpieces [], hjoined]
  apply String.toList_injective
  rw [hlower, String.toList_intercalate, splitAtChar, List.map_map, List.map_map]
  congr 1
  refine List.map_congr_left fun piece _ => ?_
  simp [lowercase]

/-- A part without quotes gives the same, split or as a whole, just if it is plain. -/
theorem flatMap_splitName_eq_iff (h : ∀ c ∈ part.toList, closingFor? c = none) :
    (splitName part).flatMap endedPart = endedPart part ↔ IsPlain part := by
  rw [flatMap_splitName h]
  by_cases hempty : trim part = ""
  · -- nothing but blanks: both sides are empty
    rw [squeezed_of_trim_eq_empty hempty, endedPart_of_trim_eq_empty hempty]
    refine iff_of_true rfl ⟨h, ?_, fun hne => absurd hempty hne, ?_⟩
    · rw [hempty]
      exact fun c hc => absurd hc List.not_mem_nil
    · rw [hempty]
      rfl
  · constructor
    · intro heq
      -- the lengths agree only if no blank is dropped and no piece is empty
      have hlength := length_endedPieces (squeezed part)
      have hle := length_lowercase_squeezed_le part
      have hsame := congrArg List.length heq
      rw [length_endedPart hempty] at hsame
      have hsqueezed : squeezed part = trim part := squeezed_eq_trim (by omega)
      have hcount : (splitAtChar '.' (squeezed part)).count "" = 0 := by omega
      rw [hsqueezed, List.count_eq_zero] at hcount
      rw [hsqueezed] at heq
      exact ⟨h, squeezed_eq_trim_iff.mp hsqueezed, fun _ => hcount,
        (endedPieces_eq_iff hcount).mp heq⟩
    · intro hplain
      rw [squeezed_eq_trim_iff.mpr hplain.unspaced]
      exact (endedPieces_eq_iff (hplain.pieces hempty)).mpr hplain.lower

end Plain

/-! ## The keys of parts -/

section FlatMap

variable {α β : Type} {f g : α → List β} {as : List α}

theorem length_flatMap_le (hle : ∀ a ∈ as, (f a).length ≤ (g a).length) :
    (as.flatMap f).length ≤ (as.flatMap g).length := by
  induction as with
  | nil => exact Nat.le_refl 0
  | cons a as ih =>
      rw [List.flatMap_cons, List.flatMap_cons, List.length_append, List.length_append]
      exact Nat.add_le_add (hle a List.mem_cons_self)
        (ih fun b hb => hle b (List.mem_cons_of_mem a hb))

/-- Nothing that is shorter somewhere can be made up for elsewhere. -/
theorem flatMap_eq_iff_of_length_le (hle : ∀ a ∈ as, (f a).length ≤ (g a).length) :
    as.flatMap f = as.flatMap g ↔ ∀ a ∈ as, f a = g a := by
  refine ⟨fun h => ?_, fun h => List.flatMap_congr h⟩
  induction as with
  | nil => simp
  | cons a as ih =>
      have hrest := fun b hb => hle b (List.mem_cons_of_mem a hb)
      have hhead := hle a List.mem_cons_self
      have hothers := length_flatMap_le hrest
      rw [List.flatMap_cons, List.flatMap_cons] at h
      have hlength := congrArg List.length h
      rw [List.length_append, List.length_append] at hlength
      obtain ⟨hfirst, hsame⟩ := List.append_inj h (by omega)
      exact List.forall_mem_cons.mpr ⟨hfirst, ih hrest hsame⟩

end FlatMap

/-- Parts that are written with dots between and split again have the key that they have as a list
just if all of them are plain. -/
theorem canonicalName_splitName_iff (parts : List String) :
    canonicalName (splitName (".".intercalate parts)) = canonicalName parts ↔
      ∀ part ∈ parts, IsPlain part := by
  by_cases hne : parts = []
  · subst hne
    exact iff_of_true rfl (by simp)
  by_cases hunquoted : ∀ part ∈ parts, ∀ c ∈ part.toList, closingFor? c = none
  · rw [canonicalName_eq_iff, splitName_intercalate hne hunquoted, List.flatMap_assoc,
      flatMap_eq_iff_of_length_le fun part hpart =>
        length_flatMap_splitName_le (hunquoted part hpart)]
    exact forall₂_congr fun part hpart => flatMap_splitName_eq_iff (hunquoted part hpart)
  · refine iff_of_false (mt unquoted_of_canonicalName_eq hunquoted) fun hplain => hunquoted ?_
    exact fun part hpart => (hplain part hpart).unquoted

end TableLineage.Table

namespace TableLineage.TableId

/-! ## Ids -/

theorem ofString?_inj {value other : String} :
    ofString? value = ofString? other ↔ value = other := by
  refine ⟨fun h => ?_, congrArg ofString?⟩
  by_cases hvalue : value = "" <;> by_cases hother : other = "" <;>
    simp_all [ofString?]

theorem ofString?_value (id : TableId) : ofString? id.value = some id :=
  dif_neg id.nonempty

theorem value_of_ofString? {value : String} {id : TableId}
    (h : ofString? value = some id) : id.value = value := by
  rw [ofString?] at h
  split at h
  · cases h
  · cases h
    rfl

end TableLineage.TableId
