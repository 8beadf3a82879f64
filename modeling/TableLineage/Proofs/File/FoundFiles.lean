import Mathlib.Data.List.Nodup
import TableLineage.File.Discovery
import TableLineage.Proofs.File.PathOrder
import TableLineage.Proofs.File.RelativePaths

/-!
# The files that are found

The search goes down one folder after the other and leaves out whole folders.  The files that it
finds are nevertheless described file by file: `IsWanted` says that the extension is `sql`, that no
folder on the way is hidden, and that no start of the path is a configured path or lies under one.

* `takes` goes along the names of one path as the search goes down the folders, and the files that
  are found are those that it takes (`foundPaths_folderFindings`).
* What it asks at each name is together a condition on all starts of the path
  (`takes_iff_isWanted`).
* Different files have paths with different components, so that the sorted paths are strictly
  ascending (`isDiscoveryOf_discover`), and there is one list of them whatever the order of the
  entries is (`IsDiscoveryOf.unique`).
-/

namespace TableLineage

open TableLineage.Path (ofNames)

/-! ## Listings of files and folders -/

section Listings

variable {entries : List (String × Listing)} {names : List String}

/-- A listing of files and folders all of which could be listed, in any order. -/
inductive IsFileTree : List (String × Listing) → Prop
  | nil : IsFileTree []
  | file {name : String} {entries : List (String × Listing)} (hname : IsFileName name)
      (hnew : name ∉ entries.map (·.1)) (hentries : IsFileTree entries) :
      IsFileTree ((name, .file) :: entries)
  | folder {name : String} {inner entries : List (String × Listing)} (hname : IsFileName name)
      (hnew : name ∉ entries.map (·.1)) (hinner : IsFileTree inner)
      (hentries : IsFileTree entries) :
      IsFileTree ((name, .folder inner) :: entries)

mutual

/-- The files at an entry, by the names on the way from there. -/
def Listing.files : Listing → List (List String)
  | .file => [[]]
  | .folder entries => filesIn entries
  | .unreadable _ => []

/-- The files of a folder, by the names on the way from there. -/
def filesIn : List (String × Listing) → List (List String)
  | [] => []
  | (name, entry) :: entries => entry.files.map (name :: ·) ++ filesIn entries

end

/-- Files and folders with different names make a listing. -/
theorem isFileTree_map {ns : List String} {entryOf : String → Listing} (hnodup : ns.Nodup)
    (hnames : ∀ n ∈ ns, IsFileName n)
    (hentries : ∀ n ∈ ns, entryOf n = .file ∨ ∃ inner, entryOf n = .folder inner ∧
      IsFileTree inner) :
    IsFileTree (ns.map fun n => (n, entryOf n)) := by
  induction ns with
  | nil => exact .nil
  | cons n ns ih =>
      obtain ⟨hnew, hnodup⟩ := List.nodup_cons.mp hnodup
      rw [List.forall_mem_cons] at hnames hentries
      have hmap : n ∉ (ns.map fun n => (n, entryOf n)).map (·.1) := by simpa using hnew
      have hrest := ih hnodup hnames.2 hentries.2
      rw [List.map_cons]
      rcases hentries.1 with hfile | ⟨inner, hfolder, hinner⟩
      · rw [hfile]
        exact .file hnames.1 hmap hrest
      · rw [hfolder]
        exact .folder hnames.1 hmap hinner hrest

theorem mem_filesIn_iff :
    names ∈ filesIn entries ↔
      ∃ name entry rest, names = name :: rest ∧ (name, entry) ∈ entries ∧ rest ∈ entry.files := by
  induction entries with
  | nil => simp [filesIn]
  | cons first entries ih =>
      obtain ⟨name, entry⟩ := first
      rw [filesIn, List.mem_append, List.mem_map, ih]
      constructor
      · rintro (⟨rest, hrest, rfl⟩ | ⟨other, otherEntry, rest, rfl, hmem, hrest⟩)
        · exact ⟨name, entry, rest, rfl, List.mem_cons_self, hrest⟩
        · exact ⟨other, otherEntry, rest, rfl, List.mem_cons_of_mem _ hmem, hrest⟩
      · rintro ⟨other, otherEntry, rest, rfl, hmem, hrest⟩
        rcases List.mem_cons.mp hmem with heq | hmem
        · obtain ⟨rfl, rfl⟩ := Prod.mk.inj heq
          exact .inl ⟨rest, hrest, rfl⟩
        · exact .inr ⟨other, otherEntry, rest, rfl, hmem, hrest⟩

theorem cons_mem_filesIn_map_iff {ns rest : List String} {name : String}
    {entryOf : String → Listing} :
    name :: rest ∈ filesIn (ns.map fun n => (n, entryOf n)) ↔ name ∈ ns ∧
      rest ∈ (entryOf name).files := by
  rw [mem_filesIn_iff]
  constructor
  · rintro ⟨name', entry, rest', heq, hmem, hrest⟩
    obtain ⟨rfl, rfl⟩ := List.cons.inj heq
    obtain ⟨n, hn, heq⟩ := List.mem_map.mp hmem
    obtain ⟨rfl, rfl⟩ := Prod.mk.inj heq
    exact ⟨hn, hrest⟩
  · rintro ⟨hname, hrest⟩
    exact ⟨name, entryOf name, rest, rfl, List.mem_map.mpr ⟨name, hname, rfl⟩, hrest⟩

theorem nil_notMem_filesIn : [] ∉ filesIn entries := by
  simp [mem_filesIn_iff]

/-- The way to a file starts at an entry. -/
theorem head_mem_of_mem_filesIn {name : String} {rest : List String}
    (h : name :: rest ∈ filesIn entries) : name ∈ entries.map (·.1) := by
  obtain ⟨name', entry, rest', heq, hmem, -⟩ := mem_filesIn_iff.mp h
  obtain ⟨rfl, rfl⟩ := List.cons.inj heq
  exact List.mem_map_of_mem hmem

theorem isFileName_of_mem_filesIn (h : IsFileTree entries) (hnames : names ∈ filesIn entries) :
    ∀ name ∈ names, IsFileName name := by
  induction h generalizing names with
  | nil => simp [filesIn] at hnames
  | file hname hnew hentries ih =>
      simp only [filesIn, Listing.files, List.map_singleton, List.singleton_append,
        List.mem_cons] at hnames
      rcases hnames with rfl | hnames
      · simpa using hname
      · exact ih hnames
  | folder hname hnew hinner hentries ihinner ih =>
      simp only [filesIn, Listing.files, List.mem_append, List.mem_map] at hnames
      rcases hnames with ⟨rest, hrest, rfl⟩ | hnames
      · exact List.forall_mem_cons.mpr ⟨hname, ihinner hrest⟩
      · exact ih hnames

/-- No file is listed twice. -/
theorem nodup_filesIn (h : IsFileTree entries) : (filesIn entries).Nodup := by
  induction h with
  | nil => simp [filesIn]
  | file hname hnew hentries ih =>
      simp only [filesIn, Listing.files, List.map_singleton, List.singleton_append]
      exact List.nodup_cons.mpr ⟨fun hmem => hnew (head_mem_of_mem_filesIn hmem), ih⟩
  | folder hname hnew hinner hentries ihinner ih =>
      simp only [filesIn, Listing.files]
      refine (List.Nodup.map List.cons_injective ihinner).append ih ?_
      rintro names hinside hbeside
      obtain ⟨rest, -, rfl⟩ := List.mem_map.mp hinside
      exact hnew (head_mem_of_mem_filesIn hbeside)

end Listings

/-! ## What is wanted -/

section Wanted

variable {exclude : List String} {names prior : List String} {name : String}

/-- Whether the extension of a name is `sql`. -/
def hasSqlExtension (name : String) : Bool :=
  (Path.cutName name).2.any fun extension => extension.map Char.toLower == "sql"

theorem hasSqlExtension_iff :
    hasSqlExtension name = true ↔
      ∃ stem extension, stem ≠ "" ∧ name = stem ++ "." ++ extension ∧
        extension.map Char.toLower = "sql" := by
  simp only [hasSqlExtension, Option.any_eq_true, beq_iff_eq]
  constructor
  · rintro ⟨extension, hcut, hsql⟩
    obtain ⟨stem, hstem, hname, -⟩ := Path.cutName_extension_iff.mp hcut
    exact ⟨stem, extension, hstem, hname, hsql⟩
  · rintro ⟨stem, extension, hstem, hname, hsql⟩
    -- a dot would stay a dot among the lower-case letters
    have hdot : '.' ∉ extension.toList := by
      intro hdot
      have hmem : '.' ∈ (extension.map Char.toLower).toList := by
        rw [String.toList_map]
        exact List.mem_map.mpr ⟨'.', hdot, rfl⟩
      rw [hsql] at hmem
      simp at hmem
    exact ⟨extension, Path.cutName_extension_iff.mpr ⟨stem, hstem, hname, hdot⟩, hsql⟩

theorem isSql_join {folder : Path} (hname : IsFileName name) :
    (folder.join ⟨name⟩).isSql = hasSqlExtension name := by
  rw [Path.isSql, Path.extension?, Path.fileName?_join hname]
  rfl

/-- What makes a file one that is looked for, by the names on the way to it. -/
structure IsWanted (exclude names : List String) : Prop where
  /-- The extension is `sql`, in any letter case. -/
  sql : ∃ stem extension, stem ≠ "" ∧ names.getLast? = some (stem ++ "." ++ extension) ∧
    extension.map Char.toLower = "sql"
  /-- The name of no folder starts with a dot. -/
  visible : ∀ folder ∈ names.dropLast, folder.toList.head? ≠ some '.'
  /-- No start of the path is configured or lies under what is. -/
  included : ∀ start, start ≠ [] → start <+: names → ∀ configured ∈ exclude,
    Path.folderKey (ofNames start).text ≠ Path.folderKey configured ∧
      ¬ (Path.folderKey configured).toList ++ ['/'] <+: (Path.folderKey (ofNames start).text).toList

theorem isExcluded_eq_false_iff {path : Path} :
    isExcluded exclude path = false ↔ ∀ configured ∈ exclude,
      Path.folderKey path.text ≠ Path.folderKey configured ∧
        ¬ (Path.folderKey configured).toList ++ ['/'] <+: (Path.folderKey path.text).toList := by
  simp [isExcluded, liesUnder, ← List.isPrefixOf_iff_prefix]

/-- Whether the search comes to a file in the folder `prior` and takes it. -/
def takes (exclude : List String) : (prior names : List String) → Bool
  | _, [] => false
  | prior, [name] => !isExcluded exclude (ofNames (prior ++ [name])) && hasSqlExtension name
  | prior, name :: next :: rest =>
    !isExcluded exclude (ofNames (prior ++ [name])) && !isHidden name &&
      takes exclude (prior ++ [name]) (next :: rest)

theorem takes_cons {rest : List String} (hrest : rest ≠ []) :
    takes exclude prior (name :: rest) =
      (!isExcluded exclude (ofNames (prior ++ [name])) && !isHidden name &&
        takes exclude (prior ++ [name]) rest) := by
  cases rest with
  | nil => exact absurd rfl hrest
  | cons next rest => rfl

/-- The starts of a path are its first name and the starts that go on after it. -/
theorem forall_start_cons_iff {motive : List String → Prop} {rest : List String} :
    (∀ start, start ≠ [] → start <+: name :: rest → motive start) ↔
      motive [name] ∧ ∀ start, start ≠ [] → start <+: rest → motive (name :: start) := by
  constructor
  · intro h
    refine ⟨h [name] (List.cons_ne_nil _ _) (List.prefix_append [name] rest), ?_⟩
    exact fun start _ hstart => h _ (List.cons_ne_nil _ _) (List.cons_prefix_cons.mpr ⟨rfl, hstart⟩)
  · rintro ⟨hname, hrest⟩ start hne hstart
    obtain ⟨other, start, rfl⟩ := List.exists_cons_of_ne_nil hne
    obtain ⟨rfl, hmore⟩ := List.cons_prefix_cons.mp hstart
    by_cases hend : start = []
    · exact hend ▸ hname
    · exact hrest start hend hmore

theorem takes_iff :
    takes exclude prior names = true ↔
      (∃ name, names.getLast? = some name ∧ hasSqlExtension name = true) ∧
        (∀ folder ∈ names.dropLast, isHidden folder = false) ∧
          ∀ start, start ≠ [] → start <+: names → isExcluded exclude (ofNames (prior ++ start)) =
            false := by
  induction names generalizing prior with
  | nil => simp [takes]
  | cons name rest ih =>
      rw [forall_start_cons_iff]
      by_cases hrest : rest = []
      · subst hrest
        simp +contextual [takes, and_comm]
      · -- a name with more behind it is a folder: it must be visible, and neither it nor a later
        -- start excluded
        obtain ⟨next, more, rfl⟩ := List.exists_cons_of_ne_nil hrest
        rw [takes_cons hrest, Bool.and_eq_true, Bool.and_eq_true, ih, List.getLast?_cons_cons,
          List.dropLast_cons_cons, List.forall_mem_cons]
        simp only [Bool.not_eq_true', List.append_assoc, List.singleton_append]
        tauto

/-- A file is taken if and only if it is wanted. -/
theorem takes_iff_isWanted : takes exclude [] names = true ↔ IsWanted exclude names := by
  rw [takes_iff]
  simp only [isExcluded_eq_false_iff, hasSqlExtension_iff, List.nil_append]
  constructor
  · rintro ⟨⟨name, hlast, stem, extension, hstem, rfl, hsql⟩, hvisible, hincluded⟩
    exact ⟨⟨stem, extension, hstem, hlast, hsql⟩, by simpa [isHidden] using hvisible, hincluded⟩
  · rintro ⟨⟨stem, extension, hstem, hlast, hsql⟩, hvisible, hincluded⟩
    exact ⟨⟨_, hlast, stem, extension, hstem, rfl, hsql⟩, by simpa [isHidden] using hvisible,
      hincluded⟩

/-- What is left out: a hidden folder, a configured path and what lies under it, other files. -/
example :
    [[".git", "x.sql"], ["scratch", "c.sql"], ["scratch_keep", "d.sql"], ["a", "z.SQL"],
      ["notes.md"]].map
      (takes ["./scratch/"] []) = [false, false, true, true, false] := by
  decide +kernel

/-- The folders on the way to a file that is wanted are looked into. -/
theorem IsWanted.isEntered {start : List String} (h : IsWanted exclude names)
    (hnames : ∀ name ∈ names, IsFileName name) (hne : start ≠ []) (hstart : start <+: names)
    (hproper : start ≠ names) : isEntered exclude (ofNames start) = true := by
  obtain ⟨folders, folder, rfl⟩ := List.eq_nil_or_concat' start |>.resolve_left hne
  obtain ⟨more, rfl⟩ := hstart
  have hmore : more ≠ [] := by
    rintro rfl
    exact hproper (List.append_nil _).symm
  have hfolder : folder ∈ (folders ++ [folder] ++ more).dropLast := by
    rw [List.dropLast_append_of_ne_nil hmore]
    simp
  have hincluded := isExcluded_eq_false_iff.mpr (h.included _ hne (List.prefix_append _ more))
  have hvisible : isHidden folder = false := by simpa [isHidden] using h.visible folder hfolder
  have hfileName : (ofNames (folders ++ [folder])).fileName? = some folder := by
    rw [Path.ofNames_append_singleton (fun n hn => hnames n (by simp [hn]))
      (hnames folder (by simp)), Path.fileName?_join (hnames folder (by simp))]
  rw [TableLineage.isEntered, hincluded, hfileName]
  simp [hvisible]

end Wanted

/-! ## What the search finds -/

section Search

variable {exclude : List String} {entries : List (String × Listing)} {prior : List String}

/-- The paths of the files among some findings. -/
def foundPaths (findings : List (Path × Finding)) : List Path :=
  findings.filterMap fun (path, finding) => if finding = .sqlFile then some path else none

theorem foundPaths_append (findings others : List (Path × Finding)) :
    foundPaths (findings ++ others) = foundPaths findings ++ foundPaths others :=
  List.filterMap_append

/-- The search in a folder finds the files in it that are taken. -/
theorem foundPaths_folderFindings (h : IsFileTree entries) (hprior : ∀ n ∈ prior, IsFileName n) :
    foundPaths (folderFindings exclude (ofNames prior) entries) =
      ((filesIn entries).filter (takes exclude prior)).map fun names =>
        ofNames (prior ++ names) := by
  induction h generalizing prior with
  | nil => rfl
  | @file name entries hname hnew hentries ih =>
      have hjoin := Path.ofNames_append_singleton hprior hname
      simp only [folderFindings, filesIn, Listing.files, List.map_singleton, List.filter_append,
        List.map_append, foundPaths_append, ih hprior, ← hjoin]
      congr 1
      rw [entryFindings, hjoin, isSql_join hname, ← hjoin]
      cases hexcluded : isExcluded exclude (ofNames (prior ++ [name])) <;>
        cases hsql : hasSqlExtension name <;> simp [takes, foundPaths, hexcluded, hsql]
  | @folder name inner entries hname hnew hinner hentries ihinner ih =>
      have hjoin := Path.ofNames_append_singleton hprior hname
      have hprior' : ∀ n ∈ prior ++ [name], IsFileName n := by
        simpa [or_imp, forall_and] using ⟨hprior, hname⟩
      simp only [folderFindings, filesIn, Listing.files, List.filter_append, List.map_append,
        foundPaths_append, ih hprior, ← hjoin, entryFindings]
      congr 1
      -- the files in the folder are taken only if the folder is looked into
      have htakes : (filesIn inner).filter (takes exclude prior ∘ (name :: ·)) =
          (filesIn inner).filter fun rest =>
            (!isExcluded exclude (ofNames (prior ++ [name])) && !isHidden name) &&
              takes exclude (prior ++ [name]) rest :=
        List.filter_congr fun rest hrest =>
          takes_cons fun hnil => nil_notMem_filesIn (hnil ▸ hrest)
      rw [List.filter_map, htakes]
      cases hexcluded : isExcluded exclude (ofNames (prior ++ [name]))
      · cases hhidden : isHidden name
        · simp [ihinner hprior']
        · simp [foundPaths]
      · simp [foundPaths]

/-- Nothing in a tree of files and folders is unreadable. -/
theorem unreadable_notMem_folderFindings (h : IsFileTree entries) (folder path : Path)
    (cause : String) :
    (path, .unreadable cause) ∉ folderFindings exclude folder entries := by
  induction h generalizing folder with
  | nil => simp [folderFindings]
  | file hname hnew hentries ih =>
      simp only [folderFindings, List.mem_append, not_or]
      refine ⟨?_, ih folder⟩
      split
      · simp
      · rw [entryFindings]
        split <;> simp
  -- a folder is either passed over or entered, and what is found inside it is found by recursion
  | folder hname hnew hinner hentries ihinner ih =>
      simp only [folderFindings, List.mem_append, not_or]
      refine ⟨?_, ih folder⟩
      split
      · simp
      · rw [entryFindings]
        split
        · simp
        · exact ihinner _

end Search

/-! ## Discoveries -/

section Discoveries

variable {exclude : List String} {isFile : List String → Prop}
  {entries others : List (String × Listing)} {found other : Discovery}

/-- A listing of the files `isFile` as far as the search looks into their folders.  Of other folders
it may show anything or nothing. -/
structure Shows (exclude : List String) (isFile : List String → Prop)
    (entries : List (String × Listing)) : Prop where
  isFileTree : IsFileTree entries
  isFileName : ∀ names, isFile names → ∀ name ∈ names, IsFileName name
  mem_filesIn_iff : ∀ names,
    (∀ start, start ≠ [] → start <+: names → start ≠ names →
      isEntered exclude (ofNames start) = true) →
      (names ∈ filesIn entries ↔ isFile names)

/-- A discovery of exactly the wanted ones of some files, each once and in the order of the
paths. -/
structure IsDiscoveryOf (exclude : List String) (isFile : List String → Prop) (found : Discovery) :
    Prop where
  ascending : found.files.Pairwise fun a b => Path.lessComponents a.components b.components = true
  mem_files : ∀ path, path ∈ found.files ↔
    ∃ names, isFile names ∧ IsWanted exclude names ∧ path = ofNames names
  unreadable : found.unreadable = []

/-- A listing of files and folders shows all its files. -/
theorem shows_filesIn (h : IsFileTree entries) : Shows exclude (· ∈ filesIn entries) entries where
  isFileTree := h
  isFileName := fun _ hnames => isFileName_of_mem_filesIn h hnames
  mem_filesIn_iff := fun _ _ => Iff.rfl

theorem files_discover (h : IsFileTree entries) :
    (discover exclude entries).files =
      Path.sortBy id (((filesIn entries).filter (takes exclude [])).map ofNames) := by
  have hfound : foundPaths (folderFindings exclude (ofNames []) entries) =
      ((filesIn entries).filter (takes exclude [])).map ofNames :=
    foundPaths_folderFindings h (by simp)
  exact congrArg (Path.sortBy id) hfound

theorem mem_files_discover (h : IsFileTree entries) {path : Path} :
    path ∈ (discover exclude entries).files ↔
      ∃ names, names ∈ filesIn entries ∧ IsWanted exclude names ∧ path = ofNames names := by
  rw [files_discover h, (Path.sortBy_perm id _).mem_iff, List.mem_map]
  simp only [List.mem_filter, takes_iff_isWanted, and_assoc, @eq_comm _ path]

/-- Sorted paths are strictly ascending, because no two of them have the same components. -/
theorem pairwise_files_discover (h : IsFileTree entries) :
    (discover exclude entries).files.Pairwise fun a b =>
      Path.lessComponents a.components b.components = true := by
  rw [files_discover h]
  have htaken : ((filesIn entries).filter (takes exclude [])).Nodup := (nodup_filesIn h).filter _
  have hcomponents :
      (((filesIn entries).filter (takes exclude [])).map ofNames).map Path.components =
      ((filesIn entries).filter (takes exclude [])).map fun names => names.map .name := by
    rw [List.map_map]
    refine List.map_congr_left fun names hnames => Path.components_ofNames ?_
    exact isFileName_of_mem_filesIn h (List.mem_of_mem_filter hnames)
  have hinjective : Function.Injective fun names : List String => names.map PathComponent.name :=
    List.map_injective_iff.mpr fun a b hab => PathComponent.name.inj hab
  have hdiffer : ((Path.sortBy id (((filesIn entries).filter (takes exclude [])).map ofNames)).map
      Path.components).Nodup := by
    rw [((Path.sortBy_perm id _).map Path.components).nodup_iff, hcomponents]
    exact htaken.map hinjective
  refine ((Path.pairwise_sortBy id _).and (List.pairwise_map.mp hdiffer)).imp ?_
  exact fun hpair => Path.lessComponents_of_le hpair.1 hpair.2

theorem unreadable_discover (h : IsFileTree entries) :
    (discover exclude entries).unreadable = [] := by
  simp only [discover]
  rw [List.filterMap_eq_nil_iff.mpr]
  · simp [Path.sortBy]
  · rintro ⟨path, finding⟩ hfinding
    cases finding with
    | sqlFile => rfl
    | excluded => rfl
    | unreadable cause => exact absurd hfinding (unreadable_notMem_folderFindings h _ path cause)

/-- The search finds exactly the wanted files. -/
theorem isDiscoveryOf_discover (h : Shows exclude isFile entries) :
    IsDiscoveryOf exclude isFile (discover exclude entries) where
  ascending := pairwise_files_discover h.isFileTree
  mem_files := by
    intro path
    rw [mem_files_discover h.isFileTree]
    refine exists_congr fun names => and_congr_left fun ⟨hwanted, _⟩ => ?_
    constructor
    · intro hmem
      have hnames := isFileName_of_mem_filesIn h.isFileTree hmem
      exact (h.mem_filesIn_iff names fun _ => hwanted.isEntered hnames).mp hmem
    · intro hfile
      have hnames := h.isFileName names hfile
      exact (h.mem_filesIn_iff names fun _ => hwanted.isEntered hnames).mpr hfile
  unreadable := unreadable_discover h.isFileTree

/-- There is one discovery of some files. -/
theorem IsDiscoveryOf.unique (hfound : IsDiscoveryOf exclude isFile found)
    (hother : IsDiscoveryOf exclude isFile other) : found = other := by
  have hnodup : ∀ {d : Discovery}, IsDiscoveryOf exclude isFile d → d.files.Nodup := fun hd =>
    hd.ascending.imp fun {a b} hless heq => by
      rw [heq, Path.lessComponents_irrefl] at hless
      cases hless
  have hperm : found.files.Perm other.files :=
    (List.perm_ext_iff_of_nodup (hnodup hfound) (hnodup hother)).mpr fun path =>
      (hfound.mem_files path).trans (hother.mem_files path).symm
  have hfiles : found.files = other.files :=
    hperm.eq_of_pairwise (fun a b _ _ hab hba => (Path.lessComponents_asymm hab hba).elim)
      hfound.ascending hother.ascending
  exact congrArg₂ Discovery.mk hfiles (hfound.unreadable.trans hother.unreadable.symm)

end Discoveries

end TableLineage
