import TableLineage.Config.Basic
import TableLineage.Proofs.Lineage.OrderIndependence
import TableLineage.Proofs.Sql.NameTokens
import TableLineage.Proofs.Table.DottedNames

/-!
# Names of files and references to them

The table of a file is named after the schema and the stem of the file, written with a dot between,
and its id is read from that text.  A quoted reference to the schema and the stem has them as two
parts.  The file has the id that the reference means just if schema and stem are plain
(`id_eq_canonicalName_iff`), and then the reference means the model of the file, among any other
files (`reference_to_plain_file`).

If they are not plain, the two differ: the stem `a..b` is read as `a.b`, and the reference
`"s"."a..b"` is to an external source (`reference_to_doubledDot`).
-/

namespace TableLineage

open Table

/-! ## The table of a file -/

section Naming

variable {config : Config} {path : Path}

theorem foldl_withName (models : List (String × String)) (naming : StemNaming) :
    (models.foldl (fun naming (path, table) => naming.withName path (Text.trim table))
        naming).schema = naming.schema ∧
      ∀ key, (∀ entry ∈ models, Path.key entry.1 ≠ key) →
        (models.foldl (fun naming (path, table) => naming.withName path (Text.trim table))
          naming).given.lookup key = naming.given.lookup key := by
  induction models generalizing naming with
  | nil => exact ⟨rfl, fun _ _ => rfl⟩
  | cons entry models ih =>
      obtain ⟨hschema, hgiven⟩ := ih (naming.withName entry.1 (Text.trim entry.2))
      refine ⟨hschema, fun key hkey => ?_⟩
      have hother : (key == Path.key entry.1) = false :=
        beq_eq_false_iff_ne.mpr (hkey entry List.mem_cons_self).symm
      rw [List.foldl_cons, hgiven key fun other hother =>
        hkey other (List.mem_cons_of_mem entry hother), StemNaming.withName, List.lookup_cons,
        hother]

/-- A valid schema holds no blank. -/
theorem isBlank_of_mem_schema (hconfig : config.validate = .ok config) {schema : String}
    (hschema : config.schema = some schema) : ∀ c ∈ schema.toList, Text.isBlank c = false := by
  have hvalid : Config.isSchema schema = true := by
    by_contra hinvalid
    have hfault : ∃ fault, config.fault? = some fault := by
      rw [Config.fault?, hschema, Option.filter_some_pos (by simpa using hinvalid)]
      split
      · exact ⟨_, rfl⟩
      · split <;> exact ⟨_, rfl⟩
    obtain ⟨fault, hfault⟩ := hfault
    rw [Config.validate, hfault] at hconfig
    cases hconfig
  rw [Config.isSchema, Bool.and_eq_true, Bool.not_eq_true', Bool.not_eq_true',
    List.any_eq_false] at hvalid
  intro c hc
  simpa using hvalid.2 c hc

/-- The schema, if there is one, and the stem of a file. -/
def nameParts (config : Config) (stem : String) : List String :=
  config.schema.toList ++ [stem]

/-- Without a name of its own, a file is named after the schema and the stem. -/
theorem tableFor_naming (hconfig : config.validate = .ok config) {stem : String}
    (hstem : path.stem? = some stem) (hne : stem ≠ "")
    (hmodels : ∀ entry ∈ config.models, Path.key entry.1 ≠ Path.key path.text) :
    config.naming.tableFor path =
      TableName.ofString? (".".intercalate (nameParts config stem)) := by
  have hfold := foldl_withName config.models
  cases hschema : config.schema with
  | none =>
      obtain ⟨hnone, hgiven⟩ := hfold .plain
      rw [StemNaming.tableFor, Config.naming, hschema, hgiven _ hmodels, hnone]
      simp [StemNaming.plain, hstem, hne, nameParts, hschema]
  | some schema =>
      obtain ⟨hsome, hgiven⟩ := hfold (StemNaming.plain.withSchema (Text.trim schema))
      rw [StemNaming.tableFor, Config.naming, hschema, hgiven _ hmodels, hsome,
        Text.trim_eq_self (isBlank_of_mem_schema hconfig hschema)]
      simp [StemNaming.plain, StemNaming.withSchema, hstem, hne, nameParts, hschema]

/-- The id that is read from the name of a file. -/
theorem map_id_ofSource? {source : SqlSource} {text : String} {naming : TableNaming}
    (hne : text ≠ "") (hname : naming source.path = TableName.ofString? text) :
    (NamedSource.ofSource? naming source).map (·.id) =
      TableId.ofString? (canonicalName (splitName text)) := by
  rw [NamedSource.ofSource?, hname, TableName.ofString?, dif_neg hne]
  rw [Option.bind_some, Option.map_map]
  exact Option.map_id'

theorem intercalate_nameParts_ne_empty {stem : String} (hne : stem ≠ "") :
    ".".intercalate (nameParts config stem) ≠ "" := by
  cases hschema : config.schema with
  | none => simpa [nameParts, hschema] using hne
  | some schema => simp [nameParts, hschema]

variable {source : SqlSource} {stem : String}

/-- The table of a file has the id of schema and stem, taken as parts, just if both are plain. -/
theorem id_eq_canonicalName_iff (hconfig : config.validate = .ok config)
    (hstem : source.path.stem? = some stem) (hne : stem ≠ "")
    (hmodels : ∀ entry ∈ config.models, Path.key entry.1 ≠ Path.key source.path.text) :
    (NamedSource.ofSource? config.naming.tableFor source).map (·.id) =
        TableId.ofString? (canonicalName (nameParts config stem)) ↔
      ∀ part ∈ nameParts config stem, IsPlain part := by
  rw [map_id_ofSource? (intercalate_nameParts_ne_empty hne)
    (tableFor_naming hconfig hstem hne hmodels), TableId.ofString?_inj, canonicalName_splitName_iff]

end Naming

/-! ## References -/

/-- The tokens of a dotted name whose parts are all in quotes. -/
def quotedName (mark : Sql.QuoteMark) : List String → List Sql.Token
  | [] => []
  | [part] => [.word part (some mark)]
  | part :: rest => .word part (some mark) :: .period :: quotedName mark rest

/-- The reference to a name whose parts are all in quotes. -/
def quotedReference (parts : List String) : Sql.TableReference :=
  ⟨parts.map fun part => ⟨part, true⟩⟩

theorem isName_quotedName (mark : Sql.QuoteMark) {parts : List String} (hne : parts ≠ []) :
    Sql.IsName (quotedName mark parts) (quotedReference parts).parts := by
  have hword : ∀ part, Sql.IsNamePart [.word part (some mark)] ⟨part, true⟩ := fun part => .word rfl
  induction parts with
  | nil => exact absurd rfl hne
  | cons part parts ih =>
      cases parts with
      | nil => exact .last (hword part)
      | cons next parts => exact .dotted 0 (hword part) (ih (List.cons_ne_nil next parts))

/-- A quoted name is read as the reference to its parts. -/
theorem tableFactor_quotedName (mark : Sql.QuoteMark) {parts : List String} (hne : parts ≠ [])
    {rest : List Sql.Token} (hrest : Sql.EndsName rest) :
    Sql.tableFactor (quotedName mark parts ++ rest) = .table (quotedReference parts) := by
  have hname := isName_quotedName mark hne
  obtain ⟨first, more, hfirst, -, hplain⟩ := Sql.exists_startsName hname
  have hread := Sql.namedFactor_of_isName hname hrest
  rw [hfirst, List.cons_append] at hread ⊢
  rw [Sql.tableFactor_of_isPlain _ hplain, Sql.innerFactor_of_isPlain _ hplain, hread]

section Resolution

variable {naming : TableNaming} {inputs : List (Except SourceError SqlSource)} {source : SqlSource}

theorem mem_namedSources {file : NamedSource} (hinput : .ok source ∈ inputs)
    (hfile : NamedSource.ofSource? naming source = some file) :
    file ∈ namedSources naming inputs := by
  rw [(isNamedInPathOrder_namedSources naming inputs).perm.mem_iff, namedInputs, List.mem_filterMap]
  exact ⟨.ok source, hinput, hfile⟩

/-- A canonical name that is the id of a file, in lower case, means its model. -/
theorem find_id {file : NamedSource} (hfile : file ∈ namedSources naming inputs)
    (hlower : Text.lowercase file.id.value = file.id.value) :
    (catalogOf (namedSources naming inputs)).find file.id.value = .model file.id.value := by
  rw [catalogOf_eq, Sql.ModelCatalog.find, if_pos]
  rw [Sql.ModelCatalog.mem_ids_ofRegistrations]
  exact ⟨file.registration, List.mem_map_of_mem hfile, hlower⟩

/-- Outside the scope of common table expressions, a reference whose canonical name is the id of a
file means the model of the file. -/
theorem resolve_id {file : NamedSource} (hfile : file ∈ namedSources naming inputs)
    {reference : Sql.TableReference} (hid : file.id.value = reference.canonical)
    {ctes : Sql.CteScope}
    (hscope : reference.isQualified = true ∨ ctes.contains reference.canonical = false) :
    Sql.resolve (catalogOf (namedSources naming inputs)) ctes reference = .model file.id.value := by
  have hlower : Text.lowercase file.id.value = file.id.value := by
    rw [hid, Sql.TableReference.canonical, lowercase_canonicalName]
  have hcondition : (!reference.isQualified && ctes.contains reference.canonical) = false := by
    rcases hscope with hscope | hscope <;> simp [hscope]
  rw [Sql.resolve, hcondition, if_neg Bool.false_ne_true, ← hid, Sql.ModelCatalog.lookup?,
    find_id hfile hlower]

end Resolution

/-- A file whose schema and stem are plain has the id that a quoted reference to them means, and
outside the scope of common table expressions such a reference means the model of the file. -/
theorem reference_to_plain_file {config : Config} (hconfig : config.validate = .ok config)
    {source : SqlSource} {stem : String} (hstem : source.path.stem? = some stem) (hne : stem ≠ "")
    (hmodels : ∀ entry ∈ config.models, Path.key entry.1 ≠ Path.key source.path.text)
    (hplain : ∀ part ∈ nameParts config stem, IsPlain part) :
    (NamedSource.ofSource? config.naming.tableFor source).map (·.id) =
        TableId.ofString? (canonicalName (nameParts config stem)) ∧
      (∀ mark rest, Sql.EndsName rest →
        Sql.tableFactor (quotedName mark (nameParts config stem) ++ rest) =
          .table (quotedReference (nameParts config stem))) ∧
      ∀ inputs id, .ok source ∈ inputs →
        TableId.ofString? (canonicalName (nameParts config stem)) = some id →
        ∀ (reference : Sql.TableReference) ctes,
          reference.parts.map (·.value) = nameParts config stem →
          reference.isQualified = true ∨ ctes.contains reference.canonical = false →
          Sql.resolve (catalogOf (namedSources config.naming.tableFor inputs)) ctes reference =
            .model id.value := by
  have hid := (id_eq_canonicalName_iff hconfig hstem hne hmodels).mpr hplain
  refine ⟨hid, fun mark rest => tableFactor_quotedName mark (by simp [nameParts]), ?_⟩
  intro inputs id hinput hvalue reference ctes hparts hscope
  -- the file has the id that the reference spells, so the catalog finds it
  rw [hvalue, Option.map_eq_some_iff] at hid
  obtain ⟨file, hfile, rfl⟩ := hid
  have hcanonical : file.id.value = reference.canonical := by
    rw [TableId.value_of_ofString? hvalue, Sql.TableReference.canonical, hparts]
  exact resolve_id (mem_namedSources hinput hfile) hcanonical hscope

/-- Of two dots in a stem one is lost in the id of the file, and the reference is to an external
source. -/
theorem reference_to_doubledDot :
    let config : Config := { Config.ofFolder "sql" with schema := some "s" }
    let source : SqlSource := ⟨⟨"a..b.sql"⟩, "SELECT 1"⟩
    let reader : SqlSource := ⟨⟨"r.sql"⟩, "SELECT * FROM \"s\".\"a..b\""⟩
    let parts := nameParts config "a..b"
    config.validate = .ok config ∧ source.path.stem? = some "a..b" ∧ config.models = [] ∧
      (NamedSource.ofSource? config.naming.tableFor source).map (·.id.value) = some "s.a.b" ∧
      (NamedSource.ofSource? config.naming.tableFor source).map (·.id) ≠
        TableId.ofString? (canonicalName parts) ∧
      Sql.resolve (catalogOf (namedSources config.naming.tableFor [.ok source, .ok reader])) .empty
        (quotedReference parts) = .external "s.a..b" ∧
      (buildLineage .generic config.naming.tableFor
          [.ok source, .ok reader]).graph.directReads "s.r" =
        [⟨"s.a..b", by decide⟩] := by
  intro config source reader parts
  -- both files are named, and the paths come sorted already
  have hnamed : namedSources config.naming.tableFor [.ok source, .ok reader] =
      [⟨source, ⟨"s.a..b", by decide⟩, ⟨"s.a.b", by decide⟩⟩,
        ⟨reader, ⟨"s.r", by decide⟩, ⟨"s.r", by decide⟩⟩] := by
    have hsorted : sortedSources [.ok source, .ok reader] = [source, reader] :=
      List.mergeSort_of_pairwise (by decide +kernel)
    rw [namedSources, hsorted]
    decide +kernel
  refine ⟨by decide +kernel, by decide +kernel, rfl, by decide +kernel, by decide +kernel, ?_, ?_⟩
  · rw [hnamed]
    decide +kernel
  · rw [graph_buildLineage, hnamed]
    decide +kernel

/-- A stem in capitals with dots and blanks at its ends, and a quoted reference to it in another
file. -/
theorem reference_to_dotted_file :
    let config : Config := { Config.ofFolder "sql" with schema := some "Sales" }
    let source : SqlSource := ⟨⟨"marts/ Orders.2024 .sql"⟩, "SELECT 1"⟩
    let reader : SqlSource := ⟨⟨"r.sql"⟩, "SELECT * FROM \"Sales\".\" Orders.2024 \""⟩
    let parts := nameParts config " Orders.2024 "
    (∀ part ∈ parts, IsPlain part) ∧
      (NamedSource.ofSource? config.naming.tableFor source).map (·.id) =
        TableId.ofString? (canonicalName parts) ∧
      Sql.resolve (catalogOf (namedSources config.naming.tableFor [.ok reader, .ok source])) .empty
        (quotedReference parts) = .model "sales.orders.2024" := by
  intro config source reader parts
  have hconfig : config.validate = .ok config := by decide +kernel
  have hstem : source.path.stem? = some " Orders.2024 " := by decide +kernel
  have hmodels : ∀ entry ∈ config.models, Path.key entry.1 ≠ Path.key source.path.text :=
    fun _ h => absurd h List.not_mem_nil
  have hplain : ∀ part ∈ parts, IsPlain part := by
    intro part hpart
    rcases List.mem_pair.mp hpart with rfl | rfl <;> decide +kernel
  have hmeet := reference_to_plain_file hconfig hstem (by decide) hmodels hplain
  refine ⟨hplain, hmeet.1, ?_⟩
  exact hmeet.2.2 _ ⟨"sales.orders.2024", by decide⟩ (by simp) (by decide +kernel)
    (quotedReference parts) .empty (by rfl) (.inl rfl)

end TableLineage
