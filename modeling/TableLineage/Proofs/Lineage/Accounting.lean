import Mathlib.Data.List.Forall2
import TableLineage.Proofs.Lineage.OrderIndependence
import TableLineage.Proofs.Sql.Fading

/-!
# Every input is accounted for once

An input is usable if it is a source with a table name and an id (`IsUsable`).  A build drops inputs
that are not usable in two places, errors before the sources are sorted and sources without a table
after that, and sorts what it dropped again.  All the same its account is a partition of the inputs
(`inputs_accounted_for`): one entry for each input, skipped with the reason of its cause
(`IsSkippedAs`) or processed (`IsProcessedAs`).

The warnings are those of the processed files, file by file.  A scan warns at most once of
stripping, since nothing is read after the first place that is never closed, and then at most once
of the tokenizer (`exists_warnings`).
-/

namespace TableLineage

/-! ## Files and their warnings -/

namespace Sql.ScanWarning

/-- Whether a warning is about stripping comments. -/
def isOfStripping : ScanWarning → Bool
  | unterminatedBlockComment _ | unterminatedQuote _ _ => true
  | tokenizerRecovered _ _ | tokenizerFailed _ => false

end Sql.ScanWarning

theorem isOfStripping_warning (issue : Sql.StripIssue) (sql : List Char) :
    (issue.warning sql).isOfStripping = true := by
  cases issue <;> rfl

theorem not_isOfStripping_warning? {recovery : Sql.Recovery} {warning : Sql.ScanWarning}
    (h : recovery.warning? = some warning) : warning.isOfStripping = false := by
  cases recovery with
  | unneeded => cases h
  | cut fault bytes => cases h; rfl
  | failed fault bytes again => cases h; rfl

/-- A scan has at most one warning of stripping and after that at most one of the tokenizer. -/
theorem exists_warnings (dialect : Sql.Dialect) (sql : String) :
    ∃ strip tokenizer : Option Sql.ScanWarning,
      (Sql.scan dialect sql).warnings = strip.toList ++ tokenizer.toList ∧
        strip.all (·.isOfStripping) = true ∧ tokenizer.all (!·.isOfStripping) = true := by
  have hlength := Sql.length_issues_le_one dialect.quoteRules sql.toList
  obtain ⟨issue?, hissues⟩ : ∃ issue? : Option Sql.StripIssue,
      (Sql.stripComments dialect.quoteRules sql.toList).issues = issue?.toList := by
    match (Sql.stripComments dialect.quoteRules sql.toList).issues, hlength with
    | [], _ => exact ⟨none, rfl⟩
    | [issue], _ => exact ⟨some issue, rfl⟩
  refine ⟨issue?.map (·.warning sql.toList), (Sql.scan dialect sql).recovery.warning?, ?_, ?_, ?_⟩
  · rw [Option.toList_map, ← hissues]
    rfl
  · cases issue? with
    | none => rfl
    | some issue => exact isOfStripping_warning issue sql.toList
  · cases hwarning : (Sql.scan dialect sql).recovery.warning? with
    | none => rfl
    | some warning => simp [not_isOfStripping_warning? hwarning]

/-- The warnings about a source. -/
def sourceWarnings (dialect : Sql.Dialect) (source : SqlSource) : List FileWarning :=
  (Sql.scan dialect source.sql).warnings.map fun warning => ⟨source.path, warning⟩

theorem files_buildLineage (dialect : Sql.Dialect) (naming : TableNaming)
    (inputs : List (Except SourceError SqlSource)) :
    (buildLineage dialect naming inputs).files = (namedSources naming inputs).map fun file =>
      .ofScan (catalogOf (namedSources naming inputs)) file (Sql.scan dialect file.source.sql) := by
  show (scanFiles dialect (namedSources naming inputs)).map _ = _
  rw [scanFiles, List.map_map]
  rfl

theorem warnings_buildLineage (dialect : Sql.Dialect) (naming : TableNaming)
    (inputs : List (Except SourceError SqlSource)) :
    (buildLineage dialect naming inputs).summary.warnings =
      (namedSources naming inputs).flatMap fun file => sourceWarnings dialect file.source := by
  unfold buildLineage scanFiles
  exact List.flatMap_map _ _ _

/-! ## What becomes of an input -/

/-- Whether an input is a source with a table name and an id. -/
def IsUsable (naming : TableNaming) (input : Except SourceError SqlSource) : Prop :=
  ∃ source name id, input = .ok source ∧ naming source.path = some name ∧ name.id? = some id

/-- The entry of an input that is skipped. -/
inductive IsSkippedAs (naming : TableNaming) : Except SourceError SqlSource → SkippedFile → Prop
  | unread (path : Path) (cause : String) :
      IsSkippedAs naming (.error (.io path cause)) ⟨path, .io cause⟩
  | undecoded (path : Path) (cause : String) :
      IsSkippedAs naming (.error (.encoding path cause)) ⟨path, .encoding cause⟩
  | failed (unknown : Sql.Dialect.Unknown) :
      IsSkippedAs naming (.error (.dialect unknown)) ⟨⟨""⟩, .failed unknown.message⟩
  | nameless {source : SqlSource} (hname : naming source.path = none) :
      IsSkippedAs naming (.ok source) ⟨source.path, .unnamed⟩
  | idless {source : SqlSource} {name : TableName} (hname : naming source.path = some name)
      (hid : name.id? = none) : IsSkippedAs naming (.ok source) ⟨source.path, .unnamed⟩

/-- The entry of an input that is processed. -/
inductive IsProcessedAs (naming : TableNaming) : Except SourceError SqlSource → FileLineage → Prop
  | intro {source : SqlSource} {name : TableName} {lineage : FileLineage}
      (hname : naming source.path = some name) (hid : name.id? = some lineage.table)
      (hpath : lineage.path = source.path) : IsProcessedAs naming (.ok source) lineage

section Entries

variable {naming : TableNaming} {input : Except SourceError SqlSource} {source : SqlSource}

theorem IsSkippedAs.path_eq {file : SkippedFile} (h : IsSkippedAs naming input file) :
    file.path = inputPath input := by
  cases h <;> rfl

theorem IsProcessedAs.path_eq {lineage : FileLineage} (h : IsProcessedAs naming input lineage) :
    lineage.path = inputPath input := by
  cases h with
  | intro _ _ hpath => exact hpath

theorem IsSkippedAs.not_isUsable {file : SkippedFile} (h : IsSkippedAs naming input file) :
    ¬ IsUsable naming input := by
  rintro ⟨source, name, id, rfl, hname, hid⟩
  cases h with
  | nameless hnone => rw [hname] at hnone; cases hnone
  | idless hname' hnone =>
      obtain rfl := Option.some.inj (hname.symm.trans hname')
      rw [hid] at hnone
      cases hnone

theorem IsProcessedAs.isUsable {lineage : FileLineage} (h : IsProcessedAs naming input lineage) :
    IsUsable naming input := by
  cases h with
  | intro hname hid _ => exact ⟨_, _, _, rfl, hname, hid⟩

theorem isSkippedAs_ofError (naming : TableNaming) (error : SourceError) :
    IsSkippedAs naming (.error error) (.ofError error) := by
  cases error with
  | io path cause => exact .unread path cause
  | encoding path cause => exact .undecoded path cause
  | dialect unknown => exact .failed unknown

theorem isSkippedAs_unnamed (h : NamedSource.ofSource? naming source = none) :
    IsSkippedAs naming (.ok source) ⟨source.path, .unnamed⟩ := by
  cases hname : naming source.path with
  | none => exact .nameless hname
  | some name =>
      rw [NamedSource.ofSource?, hname, Option.bind_some, Option.map_eq_none_iff] at h
      exact .idless hname h

theorem isProcessedAs_ofScan {file : NamedSource} (catalog : Sql.ModelCatalog) (scan : Sql.TextScan)
    (h : NamedSource.ofSource? naming source = some file) :
    IsProcessedAs naming (.ok source) (.ofScan catalog file scan) := by
  obtain ⟨name, hname, hfile⟩ := Option.bind_eq_some_iff.mp h
  obtain ⟨id, hid, rfl⟩ := Option.map_eq_some_iff.mp hfile
  exact .intro hname hid rfl

end Entries

/-! ## The partition -/

/-- The sources without a table and those with one are all sources. -/
theorem perm_unnamed_named (naming : TableNaming) (sources : List SqlSource) :
    sources.Perm ((sources.filter fun source => (NamedSource.ofSource? naming source).isNone) ++
      (sources.filterMap (NamedSource.ofSource? naming)).map (·.source)) := by
  induction sources with
  | nil => exact .refl _
  | cons source rest ih =>
      cases hnamed : NamedSource.ofSource? naming source with
      | none =>
          rw [List.filter_cons_of_pos (by simp [hnamed]), List.filterMap_cons_none hnamed]
          exact ih.cons source
      | some file =>
          rw [List.filter_cons_of_neg (by simp [hnamed]), List.filterMap_cons_some hnamed,
            List.map_cons, source_of_ofSource? hnamed]
          exact (ih.cons source).trans List.perm_middle.symm

/-- The inputs that a build drops, in the order in which it drops them. -/
def droppedInputs (naming : TableNaming) (inputs : List (Except SourceError SqlSource)) :
    List (Except SourceError SqlSource) :=
  (inputErrors inputs).map .error ++
    ((sortedSources inputs).filter fun source =>
      (NamedSource.ofSource? naming source).isNone).map .ok

theorem perm_dropped_named (naming : TableNaming) (inputs : List (Except SourceError SqlSource)) :
    inputs.Perm (droppedInputs naming inputs ++
      ((namedSources naming inputs).map (·.source)).map .ok) := by
  have hsources : (inputs.filterMap fun input => input.toOption).Perm (sortedSources inputs) :=
    (Path.sortBy_perm _ _).symm
  have hparts := (hsources.trans (perm_unnamed_named naming (sortedSources inputs))).map
    (Except.ok : SqlSource → Except SourceError SqlSource)
  rw [List.map_append] at hparts
  calc inputs.Perm _ := perm_errors_sources inputs
    _ |>.Perm _ := hparts.append_left _
    _ = droppedInputs naming inputs ++ ((namedSources naming inputs).map (·.source)).map .ok :=
      (List.append_assoc _ _ _).symm

theorem forall₂_skippedFiles (naming : TableNaming) (inputs : List (Except SourceError SqlSource)) :
    List.Forall₂ (IsSkippedAs naming) (droppedInputs naming inputs)
      (skippedFiles naming inputs) := by
  refine List.rel_append ?_ ?_
  · rw [List.forall₂_map_left_iff, List.forall₂_map_right_iff, List.forall₂_same]
    exact fun error _ => isSkippedAs_ofError naming error
  · rw [unnamedPaths, List.map_map, List.forall₂_map_left_iff, List.forall₂_map_right_iff,
      List.forall₂_same]
    intro source hsource
    exact isSkippedAs_unnamed (by simpa using (List.mem_filter.mp hsource).2)

theorem forall₂_processed (dialect : Sql.Dialect) (naming : TableNaming)
    (inputs : List (Except SourceError SqlSource)) :
    List.Forall₂ (IsProcessedAs naming) (((namedSources naming inputs).map (·.source)).map .ok)
      (buildLineage dialect naming inputs).files := by
  rw [files_buildLineage, List.map_map, List.forall₂_map_left_iff, List.forall₂_map_right_iff,
    List.forall₂_same]
  intro file hfile
  obtain ⟨source, -, hsource⟩ := List.mem_filterMap.mp hfile
  rw [Function.comp_apply, source_of_ofSource? hsource]
  exact isProcessedAs_ofScan _ _ hsource

/-! ## The account -/

/-- The account that a build gives of its inputs, some of which it skips and some of which it
processes. -/
structure IsAccountOf (dialect : Sql.Dialect) (naming : TableNaming)
    (inputs skipped : List (Except SourceError SqlSource)) (processed : List SqlSource)
    (result : LineageScan) : Prop where
  /-- Every input is skipped or processed, once. -/
  perm : inputs.Perm (skipped ++ processed.map .ok)
  skippedAs : List.Forall₂ (IsSkippedAs naming) skipped result.summary.skipped
  processedAs : List.Forall₂ (IsProcessedAs naming) (processed.map .ok) result.files
  mem_skipped : ∀ input ∈ inputs, input ∈ skipped ↔ ¬ IsUsable naming input
  found : result.summary.found = inputs.length
  counts : result.summary.found = result.summary.processed + result.summary.skipped.length
  processed_eq : result.summary.processed = result.files.length
  paths : (result.files.map (·.path) ++ result.summary.skipped.map (·.path)).Perm
    (inputs.map inputPath)
  sorted_skipped : result.summary.skipped.Pairwise fun a b => a.path.le b.path = true
  sorted_files : result.files.Pairwise fun a b => a.path.le b.path = true
  /-- The warnings are those of the processed files, file by file. -/
  warnings : result.summary.warnings = processed.flatMap (sourceWarnings dialect)
  warning_path : ∀ warning ∈ result.summary.warnings, ∃ file ∈ result.files,
    warning.path = file.path
  /-- At most one warning of stripping, then at most one of the tokenizer. -/
  two_warnings : ∀ source ∈ processed, ∃ strip tokenizer : Option Sql.ScanWarning,
    sourceWarnings dialect source =
        (strip.toList ++ tokenizer.toList).map (fun warning => ⟨source.path, warning⟩) ∧
      strip.all (·.isOfStripping) = true ∧ tokenizer.all (!·.isOfStripping) = true

section Account

variable {naming : TableNaming} {inputs skipped : List (Except SourceError SqlSource)}
  {processed : List SqlSource} {files : List FileLineage} {skips : List SkippedFile}

theorem map_path_skipped (h : List.Forall₂ (IsSkippedAs naming) skipped skips) :
    skips.map (·.path) = skipped.map inputPath := by
  induction h with
  | nil => rfl
  | cons hfirst _ ih => rw [List.map_cons, List.map_cons, ih, hfirst.path_eq]

theorem map_path_processed
    (h : List.Forall₂ (IsProcessedAs naming) (processed.map .ok) files) :
    files.map (·.path) = processed.map (·.path) := by
  rw [List.forall₂_map_left_iff] at h
  induction h with
  | nil => rfl
  | cons hfirst _ ih => rw [List.map_cons, List.map_cons, ih, hfirst.path_eq]; rfl

theorem isUsable_of_mem_processed
    (h : List.Forall₂ (IsProcessedAs naming) (processed.map .ok) files) :
    ∀ input ∈ processed.map Except.ok, IsUsable naming input :=
  ((List.forall₂_and_left _ _).mp (h.imp fun _ _ hinput => ⟨hinput.isUsable, hinput⟩)).1

theorem not_isUsable_of_mem_skipped (h : List.Forall₂ (IsSkippedAs naming) skipped skips) :
    ∀ input ∈ skipped, ¬ IsUsable naming input :=
  ((List.forall₂_and_left _ _).mp (h.imp fun _ _ hinput => ⟨hinput.not_isUsable, hinput⟩)).1

end Account

theorem sorted_files_buildLineage (dialect : Sql.Dialect) (naming : TableNaming)
    (inputs : List (Except SourceError SqlSource)) :
    (buildLineage dialect naming inputs).files.Pairwise fun a b => a.path.le b.path = true := by
  have hsorted := (isNamedInPathOrder_namedSources naming inputs).sorted
  rw [files_buildLineage, List.pairwise_map]
  exact hsorted

/-- The account of a build, for the inputs in the order of their entries. -/
theorem isAccountOf_buildLineage {dialect : Sql.Dialect} {naming : TableNaming}
    {inputs skipped : List (Except SourceError SqlSource)}
    (hskipped : (droppedInputs naming inputs).Perm skipped)
    (hentries : List.Forall₂ (IsSkippedAs naming) skipped
      (buildLineage dialect naming inputs).summary.skipped) :
    IsAccountOf dialect naming inputs skipped ((namedSources naming inputs).map (·.source))
      (buildLineage dialect naming inputs) := by
  have hprocessed := forall₂_processed dialect naming inputs
  have hperm : inputs.Perm (skipped ++ ((namedSources naming inputs).map (·.source)).map .ok) :=
    (perm_dropped_named naming inputs).trans (hskipped.append_right _)
  have hfiles : (buildLineage dialect naming inputs).summary.processed =
      (buildLineage dialect naming inputs).files.length := by
    rw [← hprocessed.length_eq, List.length_map, List.length_map]
    rfl
  exact {
    perm := hperm
    skippedAs := hentries
    processedAs := hprocessed
    mem_skipped := by
      intro input hinput
      -- an unusable input is not among the processed ones, so it is among the skipped
      refine ⟨not_isUsable_of_mem_skipped hentries input, fun hunusable => ?_⟩
      refine (List.mem_append.mp (hperm.mem_iff.mp hinput)).resolve_right fun hmem => ?_
      exact hunusable (isUsable_of_mem_processed hprocessed input hmem)
    found := rfl
    counts := by
      rw [hfiles, ← hentries.length_eq, ← hprocessed.length_eq, Nat.add_comm, ← List.length_append]
      exact hperm.length_eq
    processed_eq := hfiles
    paths := by
      rw [map_path_skipped hentries, map_path_processed hprocessed]
      refine List.perm_append_comm.trans ?_
      have hpaths := (hperm.map inputPath).symm
      rwa [List.map_append, List.map_map] at hpaths
    sorted_skipped := Path.pairwise_sortBy _ _
    sorted_files := sorted_files_buildLineage dialect naming inputs
    warnings := by rw [warnings_buildLineage, List.flatMap_map]
    warning_path := by
      intro warning hwarning
      rw [warnings_buildLineage, List.mem_flatMap] at hwarning
      obtain ⟨file, hfile, hwarning⟩ := hwarning
      obtain ⟨found, -, rfl⟩ := List.mem_map.mp hwarning
      exact ⟨_, List.mem_map_of_mem (List.mem_map_of_mem hfile), rfl⟩
    two_warnings := by
      intro source _
      obtain ⟨strip, tokenizer, hwarnings, hstrip, htokenizer⟩ := exists_warnings dialect source.sql
      exact ⟨strip, tokenizer, by rw [sourceWarnings, hwarnings], hstrip, htokenizer⟩ }

/-- Every input of a build is accounted for exactly once: it is skipped for its own reason or
processed, the entries are in the order of the paths, and the warnings are those of the processed
files, at most two of each. -/
theorem inputs_accounted_for (dialect : Sql.Dialect) (naming : TableNaming)
    (inputs : List (Except SourceError SqlSource)) :
    ∃ skipped processed,
      IsAccountOf dialect naming inputs skipped processed (buildLineage dialect naming inputs) := by
  -- sorting the entries carries over to the inputs that they stand for
  have hsorted : (Relation.Comp (List.Forall₂ (IsSkippedAs naming)) List.Perm)
      (droppedInputs naming inputs) (buildLineage dialect naming inputs).summary.skipped :=
    ⟨_, forall₂_skippedFiles naming inputs, (Path.sortBy_perm _ _).symm⟩
  rw [List.forall₂_comp_perm_eq_perm_comp_forall₂] at hsorted
  obtain ⟨skipped, hskipped, hentries⟩ := hsorted
  exact ⟨skipped, _, isAccountOf_buildLineage hskipped hentries⟩

end TableLineage
