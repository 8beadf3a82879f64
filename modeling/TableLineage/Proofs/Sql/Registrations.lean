import Mathlib.Data.List.Induction
import TableLineage.Sql.Catalog

/-!
# A catalog is determined by the set of its registrations

Registrations are made one after the other, and a stem that gets a second id is ambiguous from then
on.  What a catalog says of a stem is nevertheless a statement about the set of all registrations
(`IsTarget`): the stem is unknown if no registration has it, it means an id if all registrations
that have it agree on that id, and it is ambiguous if two of them differ.

`isTarget_lookup` says so for every catalog, by induction on the registrations from the last one.
Order and repetitions therefore do not matter (`find_congr`).
-/

namespace TableLineage.Sql

open Text (lowercase)

/-- A model's id and the stem of its file, as they are registered. -/
structure Registration where
  id : String
  stem : String
  deriving DecidableEq, Repr

/-- What registrations say of a stem. -/
def IsTarget (registrations : List Registration) (stem : String) : Option StemTarget → Prop
  | none => ∀ r ∈ registrations, lowercase r.stem ≠ stem
  | some (.unique id) =>
    (∃ r ∈ registrations, lowercase r.stem = stem ∧ lowercase r.id = id) ∧
      ∀ r ∈ registrations, lowercase r.stem = stem → lowercase r.id = id
  | some .ambiguous =>
    ∃ r ∈ registrations, ∃ s ∈ registrations, lowercase r.stem = stem ∧ lowercase s.stem = stem ∧
      lowercase r.id ≠ lowercase s.id

section IsTarget

variable {registrations others : List Registration} {stem : String}

/-- Registrations say one thing of a stem. -/
theorem IsTarget.unique {first second : Option StemTarget}
    (hfirst : IsTarget registrations stem first) (hsecond : IsTarget registrations stem second) :
    first = second := by
  match first, second, hfirst, hsecond with
  | none, none, _, _ => rfl
  | none, some (.unique _), hnone, ⟨⟨r, hr, hstem, _⟩, _⟩ => exact absurd hstem (hnone r hr)
  | none, some .ambiguous, hnone, ⟨r, hr, _, _, hstem, _⟩ => exact absurd hstem (hnone r hr)
  | some (.unique _), none, ⟨⟨r, hr, hstem, _⟩, _⟩, hnone => exact absurd hstem (hnone r hr)
  | some .ambiguous, none, ⟨r, hr, _, _, hstem, _⟩, hnone => exact absurd hstem (hnone r hr)
  | some (.unique _), some (.unique _), ⟨⟨r, hr, hstem, hid⟩, _⟩, ⟨_, hall⟩ =>
      rw [← hid, hall r hr hstem]
  | some (.unique _), some .ambiguous, ⟨_, hall⟩, ⟨r, hr, s, hs, hstem, hstem', hne⟩ =>
      exact absurd ((hall r hr hstem).trans (hall s hs hstem').symm) hne
  | some .ambiguous, some (.unique _), ⟨r, hr, s, hs, hstem, hstem', hne⟩, ⟨_, hall⟩ =>
      exact absurd ((hall r hr hstem).trans (hall s hs hstem').symm) hne
  | some .ambiguous, some .ambiguous, _, _ => rfl

/-- Only the set of registrations counts. -/
theorem IsTarget.congr (h : ∀ r, r ∈ registrations ↔ r ∈ others) {target : Option StemTarget}
    (htarget : IsTarget registrations stem target) : IsTarget others stem target := by
  cases target with
  | none => simpa only [IsTarget, h] using htarget
  | some target => cases target <;> simpa only [IsTarget, h] using htarget

/-- What a stem means after one more registration that has it. -/
def StemTarget.afterAdding (id : String) : Option StemTarget → StemTarget
  | none => .unique id
  | some target => if target = .unique id then target else .ambiguous

/-- A registration with another stem says nothing of this one. -/
theorem IsTarget.concat_of_ne {r : Registration} (hne : lowercase r.stem ≠ stem)
    {target : Option StemTarget} (htarget : IsTarget registrations stem target) :
    IsTarget (registrations ++ [r]) stem target := by
  cases target with
  | none =>
      intro s hs
      rcases List.mem_append.mp hs with hs | hs
      · exact htarget s hs
      · rwa [List.mem_singleton.mp hs]
  | some target =>
      cases target with
      | unique id =>
          -- the new one has another stem, so what holds of all with the stem still does
          obtain ⟨⟨s, hs, hsame⟩, hall⟩ := htarget
          refine ⟨⟨s, List.mem_append_left _ hs, hsame⟩, ?_⟩
          intro s hs hstem
          rcases List.mem_append.mp hs with hs | hs
          · exact hall s hs hstem
          · rw [List.mem_singleton.mp hs] at hstem
            exact absurd hstem hne
      | ambiguous =>
          obtain ⟨s, hs, t, ht, hdiffer⟩ := htarget
          exact ⟨s, List.mem_append_left _ hs, t, List.mem_append_left _ ht, hdiffer⟩

theorem IsTarget.concat_of_eq {r : Registration} (hstem : lowercase r.stem = stem)
    {target : Option StemTarget} (htarget : IsTarget registrations stem target) :
    IsTarget (registrations ++ [r]) stem (some (.afterAdding (lowercase r.id) target)) := by
  have hlast : r ∈ registrations ++ [r] := List.mem_append_right _ List.mem_cons_self
  cases target with
  | none =>
      refine ⟨⟨r, hlast, hstem, rfl⟩, ?_⟩
      intro s hs hsame
      rcases List.mem_append.mp hs with hs | hs
      · exact absurd hsame (htarget s hs)
      · rw [List.mem_singleton.mp hs]
  | some target =>
      cases target with
      | unique id =>
          obtain ⟨⟨s, hs, hsame, hid⟩, hall⟩ := htarget
          -- a second id makes the stem ambiguous, the same id does not
          by_cases hagree : id = lowercase r.id
          · rw [StemTarget.afterAdding, if_pos (congrArg StemTarget.unique hagree)]
            refine ⟨⟨s, List.mem_append_left _ hs, hsame, hid⟩, ?_⟩
            intro t ht hstem'
            rcases List.mem_append.mp ht with ht | ht
            · exact hall t ht hstem'
            · rw [List.mem_singleton.mp ht, hagree]
          · rw [StemTarget.afterAdding, if_neg fun h => hagree (StemTarget.unique.inj h)]
            refine ⟨s, List.mem_append_left _ hs, r, hlast, hsame, hstem, ?_⟩
            rwa [hid]
      | ambiguous =>
          rw [StemTarget.afterAdding, if_neg (by simp)]
          obtain ⟨s, hs, t, ht, hdiffer⟩ := htarget
          exact ⟨s, List.mem_append_left _ hs, t, List.mem_append_left _ ht, hdiffer⟩

end IsTarget

/-! ## The catalog -/

theorem lookup_addStem (stem id key : String) (stems : List (String × StemTarget)) :
    (addStem stem id stems).lookup key =
      if key = stem then some (.afterAdding id (stems.lookup stem)) else stems.lookup key := by
  induction stems with
  | nil =>
      by_cases hkey : key = stem
      · simp [addStem, hkey, StemTarget.afterAdding]
      · simp [addStem, hkey, List.lookup_cons, beq_eq_false_iff_ne.mpr hkey]
  | cons entry rest ih =>
      obtain ⟨known, target⟩ := entry
      by_cases hknown : known = stem
      · subst hknown
        by_cases hkey : key = known
        · simp [addStem, hkey, StemTarget.afterAdding]
        · simp [addStem, hkey, List.lookup_cons, beq_eq_false_iff_ne.mpr hkey]
      · rw [addStem, if_neg hknown]
        by_cases hkey : key = known
        · subst hkey
          simp [hknown]
        · simp only [List.lookup_cons, beq_eq_false_iff_ne.mpr hkey,
            beq_eq_false_iff_ne.mpr (Ne.symm hknown), ih]

namespace ModelCatalog

/-- The catalog after registrations. -/
def ofRegistrations (registrations : List Registration) : ModelCatalog :=
  registrations.foldl (fun catalog r => catalog.register r.id r.stem) .empty

theorem ofRegistrations_concat (registrations : List Registration) (r : Registration) :
    ofRegistrations (registrations ++ [r]) =
      (ofRegistrations registrations).register r.id r.stem := by
  simp [ofRegistrations]

theorem mem_ids_ofRegistrations {registrations : List Registration} {name : String} :
    name ∈ (ofRegistrations registrations).ids ↔ ∃ r ∈ registrations, lowercase r.id = name := by
  induction registrations using List.reverseRecOn with
  | nil => simp [ofRegistrations, empty]
  | append_singleton registrations r ih =>
      rw [ofRegistrations_concat, register, Order.mem_insertAscending, ih]
      simp [or_and_right, exists_or, or_comm, eq_comm]

/-- A catalog says of a stem what its registrations say. -/
theorem isTarget_lookup (registrations : List Registration) (stem : String) :
    IsTarget registrations stem ((ofRegistrations registrations).stems.lookup stem) := by
  induction registrations using List.reverseRecOn with
  | nil => simp [ofRegistrations, empty, IsTarget]
  | append_singleton registrations r ih =>
      rw [ofRegistrations_concat, register, lookup_addStem]
      by_cases hstem : stem = lowercase r.stem
      · rw [if_pos hstem, ← hstem]
        exact ih.concat_of_eq hstem.symm
      · rw [if_neg hstem]
        exact ih.concat_of_ne (Ne.symm hstem)

/-- Catalogs with the same registrations, in any order, give a name the same meaning. -/
theorem find_congr {registrations others : List Registration}
    (h : ∀ r, r ∈ registrations ↔ r ∈ others) (name : String) :
    (ofRegistrations registrations).find name = (ofRegistrations others).find name := by
  have hids : name ∈ (ofRegistrations registrations).ids ↔
      name ∈ (ofRegistrations others).ids := by
    simp only [mem_ids_ofRegistrations, h]
  have hstems : (ofRegistrations registrations).stems.lookup name =
      (ofRegistrations others).stems.lookup name :=
    ((isTarget_lookup registrations name).congr h).unique (isTarget_lookup others name)
  simp only [find, hids, hstems]

end ModelCatalog

theorem resolve_congr {registrations others : List Registration}
    (h : ∀ r, r ∈ registrations ↔ r ∈ others) (ctes : CteScope) (reference : TableReference) :
    resolve (.ofRegistrations registrations) ctes reference =
      resolve (.ofRegistrations others) ctes reference := by
  simp only [resolve, ModelCatalog.lookup?, ModelCatalog.find_congr h]

end TableLineage.Sql
