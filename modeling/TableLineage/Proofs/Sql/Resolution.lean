import Mathlib.Data.Set.Insert
import TableLineage.Proofs.Sql.EnclosingGroup
import TableLineage.Proofs.Sql.ReadsAlike
import TableLineage.Proofs.Sql.Registrations
import TableLineage.Proofs.Table.DottedNames

/-!
# What names mean

A name means a model by its id, or else by the stem of a file, and the stem counts only if all
registrations that have it agree on one id (`lookup?_eq_some_iff`).  So the answer is a property of
the set of registrations, and a stem with two ids stays without a meaning, whatever is registered
later.

A reference then means a common table expression, a model or an external source, and the three
exclude each other (`names_are_partitioned`).  Names are in lower case already, so what is external
is no model's id in any letter case.

A reference without parts, which no statement gives (`parts_ne_nil_of_mem_extractReferences`),
counts as unqualified too: it means a common table expression if the empty name is in scope.
-/

namespace TableLineage.Sql

open Text (lowercase)

/-! ## The catalog -/

/-- The ids of the registrations with a stem. -/
def idsWithStem (registrations : List Registration) (stem : String) : Set String :=
  {id | ∃ r ∈ registrations, lowercase r.stem = stem ∧ lowercase r.id = id}

/-- Whether a name is the id of a registration. -/
def IsRegistered (registrations : List Registration) (name : String) : Prop :=
  ∃ r ∈ registrations, lowercase r.id = name

theorem idsWithStem_congr {registrations others : List Registration}
    (h : ∀ r, r ∈ registrations ↔ r ∈ others) :
    idsWithStem registrations = idsWithStem others := by
  funext stem
  simp only [idsWithStem, h]

theorem IsRegistered.congr {registrations others : List Registration}
    (h : ∀ r, r ∈ registrations ↔ r ∈ others) :
    IsRegistered registrations = IsRegistered others := by
  funext name
  simp only [IsRegistered, h]

/-- Registrations agree on the id of a stem just if they give it one id. -/
theorem isTarget_unique_iff {registrations : List Registration} {stem id : String} :
    IsTarget registrations stem (some (.unique id)) ↔ idsWithStem registrations stem = {id} := by
  rw [Set.eq_singleton_iff_unique_mem]
  constructor
  · rintro ⟨hid, hall⟩
    refine ⟨hid, ?_⟩
    rintro other ⟨r, hr, hstem, rfl⟩
    exact hall r hr hstem
  · rintro ⟨hid, hall⟩
    exact ⟨hid, fun r hr hstem => hall _ ⟨r, hr, hstem, rfl⟩⟩

namespace ModelCatalog

variable {registrations others : List Registration} {name id : String}

/-- The meaning of a stem is an id just if that is the only one it is registered with. -/
theorem lookup_eq_unique_iff :
    (ofRegistrations registrations).stems.lookup name = some (.unique id) ↔
      idsWithStem registrations name = {id} := by
  have htarget := isTarget_lookup registrations name
  rw [← isTarget_unique_iff]
  constructor
  · intro h
    rwa [h] at htarget
  · exact htarget.unique

/-- A name means a model by its id, or else by a stem that has one id. -/
theorem lookup?_eq_some_iff :
    (ofRegistrations registrations).lookup? name = some id ↔
      (IsRegistered registrations name ∧ id = name) ∨
        (¬ IsRegistered registrations name ∧ idsWithStem registrations name = {id}) := by
  rw [lookup?, find]
  by_cases hid : name ∈ (ofRegistrations registrations).ids
  · have hregistered : IsRegistered registrations name := mem_ids_ofRegistrations.mp hid
    simp [hid, hregistered, eq_comm]
  · have hregistered : ¬ IsRegistered registrations name := mt mem_ids_ofRegistrations.mpr hid
    rw [if_neg hid, ← lookup_eq_unique_iff]
    cases hstem : (ofRegistrations registrations).stems.lookup name with
    | none => simp [hregistered]
    | some target => cases target <;> simp [hregistered]

theorem lookup?_congr (h : ∀ r, r ∈ registrations ↔ r ∈ others) :
    (ofRegistrations registrations).lookup? = (ofRegistrations others).lookup? := by
  funext name
  apply Option.ext
  intro id
  rw [lookup?_eq_some_iff, lookup?_eq_some_iff, IsRegistered.congr h, idsWithStem_congr h]

/-- A stem with two ids means nothing, whatever else is registered. -/
theorem lookup?_eq_none_of_two_ids {r s : Registration} (hr : r ∈ registrations)
    (hs : s ∈ registrations) (hstem : lowercase r.stem = name) (hstem' : lowercase s.stem = name)
    (hne : lowercase r.id ≠ lowercase s.id) (hfree : ¬ IsRegistered registrations name) :
    (ofRegistrations registrations).lookup? name = none := by
  apply Option.eq_none_iff_forall_ne_some.mpr
  intro id hsome
  rcases lookup?_eq_some_iff.mp hsome with ⟨hregistered, -⟩ | ⟨-, hids⟩
  · exact hfree hregistered
  · have hfirst : lowercase r.id ∈ idsWithStem registrations name := ⟨r, hr, hstem, rfl⟩
    have hsecond : lowercase s.id ∈ idsWithStem registrations name := ⟨s, hs, hstem', rfl⟩
    rw [hids, Set.mem_singleton_iff] at hfirst hsecond
    exact hne (hfirst.trans hsecond.symm)

end ModelCatalog

/-! ## References -/

theorem resolve_eq_cte_iff_contains {catalog : ModelCatalog} {ctes : CteScope}
    {reference : TableReference} :
    resolve catalog ctes reference = .cte ↔
      reference.parts.length ≤ 1 ∧ ctes.contains reference.canonical = true := by
  have hqualified : reference.isQualified = false ↔ reference.parts.length ≤ 1 := by
    rw [TableReference.isQualified, decide_eq_false_iff_not, Nat.not_lt]
  rw [← hqualified, resolve]
  cases reference.isQualified <;> cases ctes.contains reference.canonical <;>
    cases catalog.lookup? reference.canonical <;> simp

theorem isRegistered_of_resolve {registrations : List Registration} {ctes : CteScope}
    {reference : TableReference} {id : String}
    (h : resolve (.ofRegistrations registrations) ctes reference = .model id) :
    IsRegistered registrations id := by
  rw [resolve] at h
  split at h
  · cases h
  · split at h
    case h_1 found hfound =>
        obtain rfl := Resolution.model.inj h
        rcases ModelCatalog.lookup?_eq_some_iff.mp hfound with ⟨hregistered, rfl⟩ | ⟨-, hids⟩
        · exact hregistered
        · obtain ⟨r, hr, -, hid⟩ : found ∈ idsWithStem registrations reference.canonical := by
            rw [hids]
            exact Set.mem_singleton found
          exact ⟨r, hr, hid⟩
    case h_2 => cases h

/-- An external source has the reference's own name, which is no model's id in any letter case. -/
theorem external_of_resolve {registrations : List Registration} {ctes : CteScope}
    {reference : TableReference} {id : String}
    (h : resolve (.ofRegistrations registrations) ctes reference = .external id) :
    id = reference.canonical ∧ ∀ r ∈ registrations, lowercase r.id ≠ lowercase id := by
  rw [resolve] at h
  split at h
  · cases h
  · split at h
    case h_1 => cases h
    case h_2 hnone =>
        obtain rfl := Resolution.external.inj h
        refine ⟨rfl, ?_⟩
        intro r hr hid
        rw [TableReference.canonical, Table.lowercase_canonicalName] at hid
        have hfound : (ModelCatalog.ofRegistrations registrations).lookup? reference.canonical =
            some reference.canonical :=
          ModelCatalog.lookup?_eq_some_iff.mpr (.inl ⟨⟨r, hr, hid⟩, rfl⟩)
        rw [hnone] at hfound
        cases hfound

/-- A name that is read has a first part. -/
theorem parts_ne_nil_of_namedFactor {tokens : List Token} {reference : TableReference}
    (h : (namedFactor tokens).reference? = some reference) : reference.parts ≠ [] := by
  obtain ⟨-, rest, hread, -⟩ := reference?_namedFactor_eq_some_iff.mp h
  obtain ⟨part, -, hpart⟩ := Option.map_eq_some_iff.mp hread
  obtain ⟨rfl, -⟩ := Prod.mk.inj hpart
  exact List.cons_ne_nil _ _

/-- The references of a statement have a part. -/
theorem parts_ne_nil_of_mem_extractReferences {statement : List Token} {reference : TableReference}
    (h : reference ∈ extractReferences statement) : reference.parts ≠ [] := by
  obtain ⟨i, -, hread⟩ := mem_extractReferences_iff.mp h
  rw [readAfter, tableFactor_eq] at hread
  exact parts_ne_nil_of_namedFactor hread

/-- **Names are partitioned by the set of registrations.**  A name means itself if it is a
registered id, or else the one id of a stem; repetitions and the order of registrations do not
matter, and a stem with two ids means nothing from then on.  A reference with at most one part that
is in scope means a common table expression.  Any other means a model with a registered id, or an
external source, which is no registered id.  The references of a statement have a part, so that
those in scope have exactly one. -/
theorem names_are_partitioned (registrations : List Registration) :
    (∀ name id, (ModelCatalog.ofRegistrations registrations).lookup? name = some id ↔
      (IsRegistered registrations name ∧ id = name) ∨
        (¬ IsRegistered registrations name ∧ idsWithStem registrations name = {id})) ∧
    (∀ others, (∀ r, r ∈ registrations ↔ r ∈ others) →
      (ModelCatalog.ofRegistrations registrations).lookup? =
        (ModelCatalog.ofRegistrations others).lookup?) ∧
    (∀ r ∈ registrations, ∀ s ∈ registrations, lowercase r.stem = lowercase s.stem →
      lowercase r.id ≠ lowercase s.id → ∀ more,
        ¬ IsRegistered (registrations ++ more) (lowercase r.stem) →
          (ModelCatalog.ofRegistrations (registrations ++ more)).lookup?
            (lowercase r.stem) = none) ∧
    (∀ ctes reference,
      (resolve (.ofRegistrations registrations) ctes reference = .cte ↔
        reference.parts.length ≤ 1 ∧ ctes.contains reference.canonical = true) ∧
      (∀ id, resolve (.ofRegistrations registrations) ctes reference = .model id →
        IsRegistered registrations id) ∧
      (∀ id, resolve (.ofRegistrations registrations) ctes reference = .external id →
        id = reference.canonical ∧ ∀ r ∈ registrations, lowercase r.id ≠ lowercase id)) ∧
    (∀ statement, ∀ reference ∈ extractReferences statement, ∀ ctes,
      resolve (.ofRegistrations registrations) ctes reference = .cte ↔
        reference.parts.length = 1 ∧ ctes.contains reference.canonical = true) := by
  refine ⟨fun name id => ModelCatalog.lookup?_eq_some_iff,
    fun others h => ModelCatalog.lookup?_congr h, ?_, ?_, ?_⟩
  · intro r hr s hs hstem hne more hfree
    exact ModelCatalog.lookup?_eq_none_of_two_ids (List.mem_append_left more hr)
      (List.mem_append_left more hs) rfl hstem.symm hne hfree
  · intro ctes reference
    exact ⟨resolve_eq_cte_iff_contains, fun id => isRegistered_of_resolve,
      fun id => external_of_resolve⟩
  · intro statement reference hreference ctes
    have hpos : 0 < reference.parts.length :=
      List.length_pos_iff.mpr (parts_ne_nil_of_mem_extractReferences hreference)
    rw [resolve_eq_cte_iff_contains]
    apply and_congr_left'
    omega

/-- Two files with one stem and different models leave the stem without a meaning, a third one that
repeats the first does not change that, and the ids keep theirs. -/
theorem names_of_ambiguous_stem :
    let first : Registration := ⟨"A.Orders", "Orders"⟩
    let second : Registration := ⟨"b.orders", "orders"⟩
    let statement : List Token := [.word "FROM" none, .word "Orders" none]
    (ModelCatalog.ofRegistrations [first, second, first]).lookup? "orders" = none ∧
      (ModelCatalog.ofRegistrations [first, second, first]).lookup? "a.orders" = some "a.orders" ∧
      (ModelCatalog.ofRegistrations [first, second]).lookup? =
        (ModelCatalog.ofRegistrations [second, first, second]).lookup? ∧
      (⟨[⟨"Orders", false⟩]⟩ : TableReference) ∈ extractReferences statement ∧
      (resolve (.ofRegistrations [first, second]) (collectCtes statement)
        ⟨[⟨"Orders", false⟩]⟩ ≠ .cte) := by
  intro first second statement
  have hids : lowercase first.id = "a.orders" ∧ lowercase second.id = "b.orders" ∧
      lowercase first.stem = "orders" ∧ lowercase second.stem = "orders" := by decide +kernel
  obtain ⟨-, hcongr, hambiguous, -, hstatement⟩ := names_are_partitioned [first, second]
  have hreference : (⟨[⟨"Orders", false⟩]⟩ : TableReference) ∈ extractReferences statement := by
    decide +kernel
  refine ⟨?_, ?_, hcongr _ (by simp [or_comm]), hreference, ?_⟩
  · have hfree : ¬ IsRegistered ([first, second] ++ [first]) (lowercase first.stem) := by
      simp [IsRegistered, hids]
    have hnone := hambiguous first (by simp) second (by simp) (by rw [hids.2.2.1, hids.2.2.2])
      (by simp [hids]) [first] hfree
    rwa [hids.2.2.1] at hnone
  · apply ((names_are_partitioned [first, second, first]).1 _ _).mpr
    exact .inl ⟨⟨first, by simp, hids.1⟩, rfl⟩
  · rw [ne_eq, hstatement statement _ hreference]
    rintro ⟨-, hscope⟩
    have : (collectCtes statement).contains
        (⟨[⟨"Orders", false⟩]⟩ : TableReference).canonical = false := by decide +kernel
    rw [this] at hscope
    cases hscope

/-- A reference without parts is in the scope of the empty name. -/
theorem resolve_without_parts :
    ¬ ∀ (registrations : List Registration) (ctes : CteScope) (reference : TableReference),
      resolve (.ofRegistrations registrations) ctes reference = .cte ↔
        reference.parts.length = 1 ∧ ctes.contains reference.canonical = true := by
  intro h
  have hcte : resolve (.ofRegistrations []) (CteScope.empty.insert "") ⟨[]⟩ = .cte := by
    decide +kernel
  have hlength := ((h [] (CteScope.empty.insert "") ⟨[]⟩).mp hcte).1
  cases hlength

end TableLineage.Sql
