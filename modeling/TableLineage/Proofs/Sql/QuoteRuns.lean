import Mathlib.Algebra.Ring.Parity
import TableLineage.Proofs.Sql.ClosedForms

/-!
# Runs of quotes

A search for a closing quote takes quotes in pairs, so it depends on how many of them stand in a
row.  A run is a stretch of quotes with none next to it (`IsRun`), and the closing quote is the last
one of the first run with an odd number of quotes; if every run has an even number, there is none
(`ClosesAtOddRun`).

The proof goes through the text by runs (`runs_induction`):

* what is no quote is skipped, and so is a run with an even number of quotes
  (`closingQuote?_even_run`), which only moves the other runs (`IsPartBehind.closesAtOddRun`);
* a run with an odd number of quotes ends the search (`closingQuote?_odd_run`).

With escapes the search is that in the text in which each escape and what it escapes are replaced by
another character, which is no quote (`closingQuote?_unescaped`).  Nothing here asks what a
character is, so all of it holds for the bytes of a text as well.
-/

namespace TableLineage.Sql

section

variable {α : Type} {quote : α} {text front rest : List α} {start first count place : Nat}

/-! ## Runs -/

/-- From the place `first` on there are `count` quotes, and none next to them.  What stands before
`start` does not count. -/
structure IsRun (quote : α) (text : List α) (start first count : Nat) : Prop where
  start_le : start ≤ first
  pos : 0 < count
  quotes : ∀ place, first ≤ place → place < first + count → text[place]? = some quote
  before : ∀ place, start ≤ place → place + 1 = first → text[place]? ≠ some quote
  after : text[first + count]? ≠ some quote

/-- The last place of the first run with an odd number of quotes. -/
def EndsFirstOddRun (quote : α) (text : List α) (start place : Nat) : Prop :=
  ∃ first count, IsRun quote text start first count ∧ Odd count ∧ place + 1 = first + count ∧
    ∀ earlier size, IsRun quote text start earlier size → earlier < first → Even size

/-- What is found is the last place of the first run with an odd number of quotes, and nothing is
found exactly if there is no such run. -/
structure ClosesAtOddRun (quote : α) (text : List α) (start : Nat) (found : Option Nat) : Prop where
  some_iff : ∀ place, found = some place ↔ EndsFirstOddRun quote text start place
  none_iff : found = none ↔ ∀ first count, IsRun quote text start first count → Even count

theorem IsRun.count_unique {size : Nat} (h : IsRun quote text start first count)
    (hother : IsRun quote text start first size) : count = size := by
  rcases Nat.lt_trichotomy count size with hlt | heq | hlt
  · exact absurd (hother.quotes (first + count) (by omega) (by omega)) h.after
  · exact heq
  · exact absurd (h.quotes (first + size) (by omega) (by omega)) hother.after

theorem EndsFirstOddRun.unique {other : Nat} (h : EndsFirstOddRun quote text start place)
    (hother : EndsFirstOddRun quote text start other) : place = other := by
  obtain ⟨first, count, hrun, hodd, hplace, hfirst⟩ := h
  obtain ⟨later, size, hlater, hoddLater, hotherPlace, hfirstLater⟩ := hother
  rcases Nat.lt_trichotomy first later with hlt | rfl | hlt
  · exact absurd (hfirstLater first count hrun hlt) (Nat.not_even_iff_odd.mpr hodd)
  · have hcount := hrun.count_unique hlater
    omega
  · exact absurd (hfirst later size hlater hlt) (Nat.not_even_iff_odd.mpr hoddLater)

/-- A search closes at the first odd run if it finds the end of that run, or finds nothing while
there is none. -/
theorem closesAtOddRun_of {found : Option Nat}
    (hsome : ∀ place, found = some place → EndsFirstOddRun quote text start place)
    (hnone : found = none → ∀ first count, IsRun quote text start first count → Even count) :
    ClosesAtOddRun quote text start found := by
  have hodd : ∀ place, EndsFirstOddRun quote text start place →
      ¬ ∀ first count, IsRun quote text start first count → Even count := by
    rintro place ⟨first, count, hrun, hodd, -⟩ heven
    exact Nat.not_even_iff_odd.mpr hodd (heven first count hrun)
  cases found with
  | none =>
      have hall := hnone rfl
      exact ⟨fun place => iff_of_false (by simp) fun h => hodd place h hall, iff_of_true rfl hall⟩
  | some place =>
      have hends := hsome place rfl
      refine ⟨fun other => ⟨hsome other, fun h => congrArg some (hends.unique h)⟩, ?_⟩
      exact iff_of_false (by simp) (hodd place hends)

/-! ## Runs of a later part -/

/-- A text is the part of another from the place `skipped` on, and no run goes over that place. -/
structure IsPartBehind (quote : α) (rest text : List α) (start skipped : Nat) : Prop where
  start_le : start ≤ skipped
  getElem?_eq : ∀ place, text[place + skipped]? = rest[place]?
  apart : ∀ place, start ≤ place → place + 1 = skipped → text[place]? = some quote →
    rest.head? ≠ some quote

theorem isPartBehind_append (hapart : front.getLast? = some quote → rest.head? ≠ some quote) :
    IsPartBehind quote rest (front ++ rest) 0 front.length := by
  refine ⟨Nat.zero_le _, fun place => ?_, fun place _ hplace hquote => hapart ?_⟩
  · rw [List.getElem?_append_right (Nat.le_add_left _ _), Nat.add_sub_cancel]
  · rw [List.getElem?_append_left (by omega), show place = front.length - 1 by omega] at hquote
    rwa [List.getLast?_eq_getElem?]

/-- What stands before the start of the search does not count. -/
theorem isPartBehind_drop (quote : α) (text : List α) (start : Nat) :
    IsPartBehind quote (text.drop start) text start start := by
  refine ⟨Nat.le_refl start, fun place => ?_, fun place hle hplace => ?_⟩
  · rw [List.getElem?_drop, Nat.add_comm]
  · omega

theorem IsPartBehind.isRun_iff {skipped : Nat} (h : IsPartBehind quote rest text start skipped) :
    IsRun quote text start (first + skipped) count ↔ IsRun quote rest 0 first count := by
  constructor
  · rintro ⟨-, hpos, hquotes, hbefore, hafter⟩
    refine ⟨Nat.zero_le _, hpos, fun place hle hlt => ?_, fun place _ hplace => ?_, ?_⟩
    · rw [← h.getElem?_eq]
      exact hquotes _ (by omega) (by omega)
    · rw [← h.getElem?_eq]
      exact hbefore _ (Nat.le_trans h.start_le (Nat.le_add_left _ _)) (by omega)
    · rwa [← h.getElem?_eq, Nat.add_right_comm]
  · rintro ⟨-, hpos, hquotes, hbefore, hafter⟩
    refine ⟨Nat.le_trans h.start_le (Nat.le_add_left _ _), hpos, fun place hle hlt => ?_,
      fun place hle hplace hquote => ?_, ?_⟩
    · obtain ⟨next, rfl⟩ := Nat.exists_eq_add_of_le' (Nat.le_trans (Nat.le_add_left _ _) hle)
      rw [h.getElem?_eq]
      exact hquotes next (by omega) (by omega)
    · cases first with
      | zero =>
          -- the run would go over the place where the part starts
          have hhead := hquotes 0 (Nat.le_refl 0) (by omega)
          rw [← List.head?_eq_getElem?] at hhead
          exact h.apart place hle (by omega) hquote hhead
      | succ first =>
          obtain ⟨next, rfl⟩ := Nat.exists_eq_add_of_le' (show skipped ≤ place by omega)
          rw [h.getElem?_eq] at hquote
          exact hbefore next (Nat.zero_le _) (by omega) hquote
    · rwa [Nat.add_right_comm, h.getElem?_eq]

/-- If all runs before a part are even, the closing quote is that of the part. -/
theorem IsPartBehind.closesAtOddRun {skipped : Nat} {found : Option Nat}
    (h : IsPartBehind quote rest text start skipped) (hrest : ClosesAtOddRun quote rest 0 found)
    (heven : ∀ first count, IsRun quote text start first count → first < skipped → Even count) :
    ClosesAtOddRun quote text start (found.map (· + skipped)) := by
  -- a run starts in what is skipped and is even, or it is a run of the rest
  have hruns : ∀ first count, IsRun quote text start first count →
      Even count ∨ ∃ next, first = next + skipped ∧ IsRun quote rest 0 next count := by
    intro first count hrun
    rcases Nat.lt_or_ge first skipped with hlt | hle
    · exact .inl (heven first count hrun hlt)
    · obtain ⟨next, rfl⟩ := Nat.exists_eq_add_of_le' hle
      exact .inr ⟨next, rfl, h.isRun_iff.mp hrun⟩
  apply closesAtOddRun_of
  · intro place hplace
    obtain ⟨position, hposition, rfl⟩ := Option.map_eq_some_iff.mp hplace
    obtain ⟨first, count, hrun, hodd, hends, hfirst⟩ := (hrest.some_iff position).mp hposition
    refine ⟨first + skipped, count, h.isRun_iff.mpr hrun, hodd, by omega, ?_⟩
    intro earlier size hearlier hlt
    rcases hruns earlier size hearlier with hsize | ⟨next, rfl, hnext⟩
    · exact hsize
    · exact hfirst next size hnext (by omega)
  · intro hnone first count hrun
    have hall := hrest.none_iff.mp (Option.map_eq_none_iff.mp hnone)
    rcases hruns first count hrun with hcount | ⟨next, -, hnext⟩
    · exact hcount
    · exact hall next count hnext

/-! ## The run at the start of a text -/

theorem getElem?_replicate_append {size : Nat} (h : place < size) (rest : List α) :
    (List.replicate size quote ++ rest)[place]? = some quote := by
  rw [List.getElem?_append_left (by simpa using h), List.getElem?_replicate, if_pos h]

/-- Quotes at the start of a text and no further one behind them are a run. -/
theorem isRun_replicate_append {size : Nat} (hpos : 0 < size) (h : rest.head? ≠ some quote) :
    IsRun quote (List.replicate size quote ++ rest) 0 0 size := by
  refine ⟨Nat.le_refl 0, hpos, fun place _ hlt => ?_, fun place _ hplace => ?_, ?_⟩
  · exact getElem?_replicate_append (by omega) rest
  · omega
  · rwa [Nat.zero_add, List.getElem?_append_right (by simp), List.length_replicate, Nat.sub_self,
      ← List.head?_eq_getElem?]

/-- No other run starts within the run at the start. -/
theorem IsRun.eq_of_replicate_append {size : Nat} (h : rest.head? ≠ some quote)
    (hrun : IsRun quote (List.replicate size quote ++ rest) 0 first count) (hlt : first < size) :
    first = 0 ∧ count = size := by
  have hfirst : first = 0 := by
    by_contra hne
    apply hrun.before (first - 1) (Nat.zero_le _) (by omega)
    exact getElem?_replicate_append (by omega) rest
  subst hfirst
  exact ⟨rfl, hrun.count_unique (isRun_replicate_append (by omega) h)⟩

theorem exists_replicate_append [DecidableEq α] (quote : α) (text : List α) :
    ∃ size rest, text = List.replicate size quote ++ rest ∧ rest.head? ≠ some quote := by
  induction text with
  | nil => exact ⟨0, [], rfl, by simp⟩
  | cons c text ih =>
      by_cases hc : c = quote
      · obtain ⟨size, rest, rfl, hrest⟩ := ih
        exact ⟨size + 1, rest, by rw [hc, List.replicate_succ, List.cons_append], hrest⟩
      · exact ⟨0, c :: text, rfl, by simpa using hc⟩

/-- A text goes on by characters that are no quotes and by runs of quotes. -/
@[elab_as_elim]
theorem runs_induction [DecidableEq α] (quote : α) {motive : List α → Prop} (nil : motive [])
    (plain : ∀ c rest, c ≠ quote → motive rest → motive (c :: rest))
    (run : ∀ size rest, 0 < size → rest.head? ≠ some quote → motive rest →
      motive (List.replicate size quote ++ rest))
    (text : List α) : motive text := by
  induction hlength : text.length using Nat.strongRecOn generalizing text with
  | _ length ih =>
      obtain ⟨size, rest, rfl, hrest⟩ := exists_replicate_append quote text
      rw [List.length_append, List.length_replicate] at hlength
      rcases Nat.eq_zero_or_pos size with rfl | hpos
      · cases rest with
        | nil => exact nil
        | cons c rest =>
            rw [List.length_cons] at hlength
            exact plain c rest (by simpa using hrest) (ih rest.length (by omega) rest rfl)
      · exact run size rest hpos hrest (ih rest.length (by omega) rest rfl)

/-! ## The search through runs -/

variable [DecidableEq α]

/-- Quotes are skipped in pairs. -/
theorem closingQuote?_even_run {size : Nat} (h : Even size) (rest : List α) :
    closingQuote? quote none (List.replicate size quote ++ rest) =
      (closingQuote? quote none rest).map (· + size) := by
  obtain ⟨pairs, rfl⟩ := even_iff_exists_two_mul.mp h
  induction pairs with
  | zero => simp
  | succ pairs ih =>
      have hruns : List.replicate (2 * (pairs + 1)) quote ++ rest =
          quote :: quote :: (List.replicate (2 * pairs) quote ++ rest) := rfl
      -- the first two quotes are a doubled one
      rw [hruns, closingQuote?_doubled (by simp), ih (even_two_mul pairs), Option.map_map]
      rfl

/-- The last quote of an odd run has no partner. -/
theorem closingQuote?_odd_run {size : Nat} (h : Odd size) (hrest : rest.head? ≠ some quote) :
    closingQuote? quote none (List.replicate size quote ++ rest) = some (size - 1) := by
  obtain ⟨pairs, rfl⟩ := h
  have hlast : closingQuote? quote none (quote :: rest) = some 0 :=
    closingQuote?_eq_zero_iff.mpr ⟨by simp, rfl, hrest⟩
  rw [List.replicate_succ', List.append_assoc, List.singleton_append,
    closingQuote?_even_run (even_two_mul pairs), hlast]
  simp

/-- In a text without escapes the closing quote ends the first odd run. -/
theorem closesAtOddRun_closingQuote? (quote : α) (text : List α) :
    ClosesAtOddRun quote text 0 (closingQuote? quote none text) := by
  induction text using runs_induction quote with
  | nil =>
      apply closesAtOddRun_of
      · intro place h
        cases h
      · intro _ first count hrun
        have hquote := hrun.quotes first (Nat.le_refl first) (Nat.lt_add_of_pos_right hrun.pos)
        simp at hquote
  | plain c rest hc ih =>
      have hpart : IsPartBehind quote rest ([c] ++ rest) 0 [c].length :=
        isPartBehind_append fun hlast => absurd (Option.some.inj hlast) hc
      rw [closingQuote?_plain hc (by simp)]
      apply hpart.closesAtOddRun ih
      intro first count hrun hlt
      -- a run that starts in what is skipped would start with the other character
      obtain rfl : first = 0 := by simpa using hlt
      exact absurd (Option.some.inj (hrun.quotes 0 (Nat.le_refl 0) (by simpa using hrun.pos))) hc
  | run size rest hpos hrest ih =>
      rcases Nat.even_or_odd size with heven | hodd
      · -- an even run is passed over as a whole
        have hpart : IsPartBehind quote rest (List.replicate size quote ++ rest) 0 size := by
          have happend : IsPartBehind quote rest (List.replicate size quote ++ rest) 0
              (List.replicate size quote).length := isPartBehind_append fun _ => hrest
          rwa [List.length_replicate] at happend
        rw [closingQuote?_even_run heven]
        apply hpart.closesAtOddRun ih
        intro first count hrun hlt
        rwa [(hrun.eq_of_replicate_append hrest hlt).2]
      · rw [closingQuote?_odd_run hodd hrest]
        -- an odd run leaves its last quote, which closes
        have hends : EndsFirstOddRun quote (List.replicate size quote ++ rest) 0 (size - 1) :=
          ⟨0, size, isRun_replicate_append hpos hrest, hodd, by omega, by simp⟩
        apply closesAtOddRun_of
        · intro place hplace
          rwa [← Option.some.inj hplace]
        · intro hnone
          cases hnone

/-! ## Escapes -/

variable {escape other : α}

/-- The text with every escape and the character after it, read from the left, replaced by
`other`. -/
def unescaped (escape other : α) : List α → List α
  | [] => []
  | c :: cs =>
    if c = escape then
      match cs with
      | [] => [other]
      | _ :: rest => other :: other :: unescaped escape other rest
    else
      c :: unescaped escape other cs

theorem unescaped_escaped (escape other c : α) (rest : List α) :
    unescaped escape other (escape :: c :: rest) =
      other :: other :: unescaped escape other rest := by
  simp [unescaped]

theorem unescaped_cut (escape other : α) : unescaped escape other [escape] = [other] := by
  rw [unescaped, if_pos rfl]

theorem unescaped_plain {c : α} (h : c ≠ escape) (rest : List α) :
    unescaped escape other (c :: rest) = c :: unescaped escape other rest := by
  cases rest <;> simp [unescaped, h]

theorem head?_unescaped_ne (hother : other ≠ quote) (h : text.head? ≠ some quote) :
    (unescaped escape other text).head? ≠ some quote := by
  cases text with
  | nil => exact h
  | cons c rest =>
      by_cases hc : c = escape
      · subst hc
        cases rest with
        | nil =>
            rw [unescaped_cut]
            simpa using hother
        | cons d rest =>
            rw [unescaped_escaped]
            simpa using hother
      · rw [unescaped_plain hc]
        exact h

/-- A search with escapes finds what a search without them finds when the escapes are replaced. -/
theorem closingQuote?_unescaped (hescape : escape ≠ quote) (hother : other ≠ quote)
    (text : List α) :
    closingQuote? quote none (unescaped escape other text) =
      closingQuote? quote (some escape) text := by
  -- an escape and what it escapes become characters that neither quote nor escape
  have hskip : ∀ rest, closingQuote? quote none (other :: rest) =
      (closingQuote? quote none rest).map (· + 1) := closingQuote?_plain hother (by simp)
  induction text using quotes_induction quote (some escape) with
  | nil => rfl
  | cut e he =>
      obtain rfl := Option.some.inj he
      rw [unescaped_cut, hskip, closingQuote?_cut rfl]
      rfl
  | escaped e c rest he ih =>
      obtain rfl := Option.some.inj he
      calc closingQuote? quote none (unescaped escape other (escape :: c :: rest))
          = ((closingQuote? quote none (unescaped escape other rest)).map (· + 1)).map (· + 1) := by
            rw [unescaped_escaped, hskip, hskip]
        _ = (closingQuote? quote (some escape) rest).map (· + 2) := by
            rw [ih, Option.map_map]
            rfl
        _ = closingQuote? quote (some escape) (escape :: c :: rest) := by
            rw [closingQuote?_escaped rfl]
  | doubled rest hplain ih =>
      calc closingQuote? quote none (unescaped escape other (quote :: quote :: rest))
          = (closingQuote? quote none (unescaped escape other rest)).map (· + 2) := by
            rw [unescaped_plain hescape.symm, unescaped_plain hescape.symm,
              closingQuote?_doubled (by simp)]
        _ = (closingQuote? quote (some escape) rest).map (· + 2) := by rw [ih]
        _ = closingQuote? quote (some escape) (quote :: quote :: rest) := by
            rw [closingQuote?_doubled hplain]
  | close rest hplain hrest =>
      rw [unescaped_plain hescape.symm, closingQuote?_eq_zero_iff.mpr ⟨hplain, rfl, hrest⟩]
      exact closingQuote?_eq_zero_iff.mpr ⟨by simp, rfl, head?_unescaped_ne hother hrest⟩
  | plain c rest hc hplain ih =>
      have hne : c ≠ escape := fun heq => hplain (congrArg some heq.symm)
      rw [unescaped_plain hne, closingQuote?_plain hc (by simp), ih, closingQuote?_plain hc hplain]

/-- The text with the escapes from a place on replaced. -/
def unescapedFrom (escape other : α) (text : List α) (start : Nat) : List α :=
  text.take start ++ unescaped escape other (text.drop start)

theorem drop_unescapedFrom (escape other : α) (text : List α) (start : Nat) :
    (unescapedFrom escape other text start).drop start =
    unescaped escape other (text.drop start) := by
  rcases Nat.le_total start text.length with hle | hge
  · exact List.drop_left' (List.length_take_of_le hle)
  · -- behind the end nothing is left of either
    have hnil : text.drop start = [] := List.drop_eq_nil_of_le hge
    rw [unescapedFrom, hnil, List.take_of_length_le hge, unescaped, List.append_nil, hnil]

/-- From any place on the closing quote ends the first odd run. -/
theorem closesAtOddRun_drop (quote : α) (text : List α) (start : Nat) :
    ClosesAtOddRun quote text start
      ((closingQuote? quote none (text.drop start)).map (· + start)) := by
  apply (isPartBehind_drop quote text start).closesAtOddRun (closesAtOddRun_closingQuote? quote _)
  intro first count hrun hlt
  exact absurd hrun.start_le (Nat.not_le.mpr hlt)

/-- **The closing quote ends the first odd run.**  From any place of a text on, the search without
escapes finds the last quote of the first run with an odd number of quotes, and nothing exactly if
all runs have even numbers.  With an escape that is not the quote, it finds the same as if each
escape and what it escapes were other characters, whichever they are. -/
theorem closingQuote_ends_first_odd_run (quote : α) (text : List α) (start : Nat) :
    ClosesAtOddRun quote text start ((closingQuote? quote none (text.drop start)).map (· + start)) ∧
      ∀ escape other, escape ≠ quote → other ≠ quote →
        ClosesAtOddRun quote (unescapedFrom escape other text start) start
          ((closingQuote? quote (some escape) (text.drop start)).map (· + start)) := by
  refine ⟨closesAtOddRun_drop quote text start, ?_⟩
  intro escape other hescape hother
  rw [← closingQuote?_unescaped hescape hother, ← drop_unescapedFrom]
  exact closesAtOddRun_drop quote _ start

/-- In the bytes of `'a\''''b` the backslash takes the first of four quotes, so three are left. -/
theorem closingQuote_of_escaped_bytes :
    let bytes : List UInt8 := [39, 97, 92, 39, 39, 39, 39, 98]
    (92 : UInt8) ≠ 39 ∧ (120 : UInt8) ≠ 39 ∧
      (closingQuote? 39 (some 92) (bytes.drop 1)).map (· + 1) = some 6 ∧
      EndsFirstOddRun (39 : UInt8) [39, 97, 120, 120, 39, 39, 39, 98] 1 6 := by
  intro bytes
  have hcloses := (closingQuote_ends_first_odd_run (39 : UInt8) bytes 1).2 92 120 (by decide)
    (by decide)
  have hfound : (closingQuote? 39 (some 92) (bytes.drop 1)).map (· + 1) = some 6 := by decide
  exact ⟨by decide, by decide, hfound, (hcloses.some_iff 6).mp hfound⟩

end

end TableLineage.Sql
