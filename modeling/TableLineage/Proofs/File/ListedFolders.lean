import TableLineage.File.Tree
import TableLineage.Proofs.File.FoundFiles

/-!
# Folders of a file tree as they are listed

What stands under a folder without links can be told by the names from there on, whatever path leads
to the folder and however many links were followed on the way (`FileTree.walk_append`).  The entries
of such a folder show its files as far as the search looks into the folders in between
(`FileTree.shows_entriesAt`).  The depth to which folders are listed does not matter: every folder
on the way to a file is a node of the tree (`FileTree.IsPlainFolder.length_le`).
-/

namespace TableLineage

open TableLineage.Path (ofNames)

namespace FileTree

variable {tree : FileTree} {current folder : Path} {base here names prior : List String}
  {name : String} {wanted : Path → Bool}

/-- A folder of a tree under which there are files and folders only, with names that files can have
and each in a folder of the tree. -/
structure IsPlainFolder (tree : FileTree) (base : List String) : Prop where
  isFolder : tree.node? base = some .folder
  isFolder_of_isSome : ∀ names name, base <+: names →
    (tree.node? (names ++ [name])).isSome = true → tree.node? names = some .folder
  isFileName : ∀ names name, base <+: names →
    (tree.node? (names ++ [name])).isSome = true → IsFileName name
  not_link : ∀ names target, base <+: names → tree.node? names ≠ some (.link target)

/-! ## What stands under a plain folder -/

/-- The names in a folder are those at which something stands. -/
theorem mem_namesIn_iff : name ∈ tree.namesIn here ↔
    (tree.node? (here ++ [name])).isSome = true := by
  have hkey : ∀ names : List String,
      (if names.dropLast = here then names.getLast? else none) = some name ↔
      names = here ++ [name] := by
    intro names
    rcases List.eq_nil_or_concat' names with rfl | ⟨start, last, rfl⟩
    · simp
    · simp [and_comm]
  rw [namesIn, Order.mem_ascending, List.mem_filterMap, node?, if_neg (by simp),
    List.lookup_isSome_iff]
  refine exists_congr fun node => and_congr_right fun _ => ?_
  rw [hkey, beq_iff_eq, eq_comm]

theorem nodup_namesIn (here : List String) : (tree.namesIn here).Nodup :=
  (Order.pairwise_ascending _).imp fun hlt => ne_of_lt hlt

namespace IsPlainFolder

variable (hplain : tree.IsPlainFolder base)

include hplain

/-- Whatever is on the way to something is a folder. -/
theorem isFolder_of_append {rest : List String} (hbase : base <+: names) (hrest : rest ≠ [])
    (h : (tree.node? (names ++ rest)).isSome = true) : tree.node? names = some .folder := by
  induction rest using List.reverseRecOn with
  | nil => exact absurd rfl hrest
  | append_singleton rest name ih =>
      rw [← List.append_assoc] at h
      have hparent :=
        hplain.isFolder_of_isSome (names ++ rest) name (hbase.trans (List.prefix_append _ _)) h
      by_cases hnil : rest = []
      · simpa [hnil] using hparent
      · exact ih hnil (by simp [hparent])

theorem isFolder_of_append_cons {rest : List String} (hbase : base <+: names) (hrest : rest ≠ [])
    (h : (tree.node? (names ++ name :: rest)).isSome = true) :
    tree.node? (names ++ [name]) = some .folder := by
  rw [List.append_cons] at h
  exact hplain.isFolder_of_append (hbase.trans (List.prefix_append _ _)) hrest h

theorem isSome_of_append_cons {rest : List String} (hbase : base <+: names)
    (h : (tree.node? (names ++ name :: rest)).isSome = true) :
    (tree.node? (names ++ [name])).isSome = true := by
  by_cases hrest : rest = []
  · rwa [hrest] at h
  · rw [hplain.isFolder_of_append_cons hbase hrest h]
    rfl

theorem file_or_folder (hbase : base <+: names) (h : (tree.node? names).isSome = true) :
    (∃ bytes, tree.node? names = some (.file bytes)) ∨ tree.node? names = some .folder := by
  obtain ⟨node, hnode⟩ := Option.isSome_iff_exists.mp h
  cases node with
  | file bytes => exact .inl ⟨bytes, hnode⟩
  | link target => exact absurd hnode (hplain.not_link names target hbase)
  | folder => exact .inr hnode

/-- Nothing stands deeper than the tree has nodes. -/
theorem length_le (h : (tree.node? (base ++ names)).isSome = true) :
    names.length ≤ tree.nodes.length := by
  -- every longer start of the names is a key of the tree, so the keys have that many lengths
  have hstart : ∀ k, base.length + 1 ≤ k → k < base.length + 1 + names.length →
      k ∈ tree.nodes.map (·.1.length) := by
    intro k hlow hhigh
    obtain ⟨start, rest, rfl, hlength⟩ : ∃ start rest, names = start ++ rest ∧
        base.length + start.length = k :=
      ⟨names.take (k - base.length), names.drop (k - base.length), by simp, by simp; omega⟩
    have hsome : (tree.node? (base ++ start)).isSome = true := by
      by_cases hrest : rest = []
      · simpa [hrest] using h
      · rw [← List.append_assoc] at h
        simp [hplain.isFolder_of_append (List.prefix_append base start) hrest h]
    have hne : base ++ start ≠ [] := by
      intro hnil
      rw [List.append_eq_nil_iff] at hnil
      simp [hnil] at hlength hlow
      omega
    rw [node?, if_neg hne, List.lookup_isSome_iff] at hsome
    obtain ⟨⟨key, node⟩, hmem, hkey⟩ := hsome
    rw [beq_iff_eq] at hkey
    exact List.mem_map.mpr ⟨(key, node), hmem, by rw [← hkey, List.length_append, hlength]⟩
  have hsubset : List.range' (base.length + 1) names.length ⊆ tree.nodes.map (·.1.length) := by
    intro k hk
    rw [List.mem_range'_1] at hk
    exact hstart k hk.1 hk.2
  simpa using (List.nodup_range' 1).length_le_of_subset hsubset

theorem isFileName_of_mem (h : (tree.node? (base ++ names)).isSome = true) :
    ∀ n ∈ names, IsFileName n := by
  intro n hn
  obtain ⟨start, rest, rfl⟩ := List.append_of_mem hn
  have hbase : base <+: base ++ start := List.prefix_append _ _
  rw [← List.append_assoc] at h
  exact hplain.isFileName (base ++ start) n hbase (hplain.isSome_of_append_cons hbase h)

end IsPlainFolder

/-! ## Following a path further -/

section Walk

variable {links : Nat} {target : Path} {todo rest : List PathComponent}

theorem walk_name_of_folder (h : tree.node? (here ++ [name]) = some .folder) :
    tree.walk true links here (.name name :: rest) =
      tree.walk true links (here ++ [name]) rest := by
  simp [walk, h]

theorem walk_name_of_link (h : tree.node? (here ++ [name]) = some (.link target)) :
    tree.walk true (links + 1) here (.name name :: rest) =
      tree.walk true links here (target.components ++ rest) := by
  simp [walk, h]

/-- What comes after a path that leads to a folder is followed from that folder. -/
theorem walk_append (h : tree.walk true links here todo = .ok (.present names .folder)) :
    ∃ left, ∀ more, tree.walk true links here (todo ++ more) = tree.walk true left names more := by
  fun_induction tree.walk true links here todo with
  | case1 links here =>
      obtain rfl : here = names := by simpa using h
      exact ⟨links, fun more => rfl⟩
  | case2 links here rest ih | case3 links here rest ih | case4 links here rest ih =>
      simpa only [List.cons_append, walk] using ih h
  | case9 links here name _ rest hnode ih =>
      simpa only [List.cons_append, walk_name_of_folder hnode] using ih h
  | case12 here name _ target rest hnode hlast links ih =>
      simpa only [List.cons_append, walk_name_of_link hnode, List.append_assoc] using ih h
  | case10 links here name _ target rest hnode hlast => simp at hlast
  | _ => simp at h

/-- Where a single name leads to from a folder. -/
theorem walk_singleton {node : FileNode} (hnode : tree.node? (here ++ [name]) = some node)
    (hlink : ∀ target, node ≠ .link target) :
    tree.walk true links here [.name name] = .ok (.present (here ++ [name]) node) := by
  cases node with
  | file bytes => simp [walk, hnode]
  | link target => exact absurd rfl (hlink target)
  | folder => simp [walk, hnode]

end Walk

/-! ## Names in a folder -/

section Names

/-- A path that leads to a folder is not empty, and its components lead there. -/
theorem text_ne_empty_and_walk_of_locate
    (hlocate : tree.locate current folder true = .ok (.present here .folder)) :
    folder.text ≠ "" ∧
      tree.walk true linkLimit [] (current.join folder).components =
        .ok (.present here .folder) := by
  unfold locate at hlocate
  split at hlocate
  case isTrue => cases hlocate
  case isFalse hne =>
    refine ⟨hne, ?_⟩
    split at hlocate
    case h_1 => split at hlocate <;> simp at hlocate
    case h_2 => exact hlocate

/-- A path that ends in a name may lead to a file. -/
theorem saysFolder_join (hname : IsFileName name) : saysFolder (folder.join ⟨name⟩) = false := by
  have hslash : ∀ c ∈ name.toList.reverse, ¬ '/' = c := by
    rintro c hc rfl
    exact hname.slash_notMem (List.mem_reverse.mp hc)
  have hdot : name.toList.reverse ≠ ['.'] := by
    intro h
    refine hname.ne_here (String.toList_inj.mp ?_)
    simpa using congrArg List.reverse h
  have hne : name.toList.reverse ≠ [] := by simpa using hname.toList_ne_nil
  simp only [saysFolder, Path.text_join hname, String.toList_append, List.reverse_append]
  generalize name.toList.reverse = backwards at hslash hdot hne ⊢
  rcases backwards with _ | ⟨c, _ | ⟨d, rest⟩⟩
  · exact absurd rfl hne
  · have hc : ¬ '.' = c := fun h => hdot (h ▸ rfl)
    simp [List.isPrefixOf, hslash c (by simp), hc]
  · simp [List.isPrefixOf, hslash c (by simp), hslash d (by simp)]

/-- A name in a folder leads to what stands there. -/
theorem locate_join {node : FileNode}
    (hlocate : tree.locate current folder true = .ok (.present here .folder))
    (hname : IsFileName name) (hnode : tree.node? (here ++ [name]) = some node)
    (hlink : ∀ target, node ≠ .link target) :
    tree.locate current (folder.join ⟨name⟩) true = .ok (.present (here ++ [name]) node) := by
  obtain ⟨hne, hwalk⟩ := text_ne_empty_and_walk_of_locate hlocate
  obtain ⟨left, hleft⟩ := walk_append hwalk
  have hpath : tree.walk true linkLimit [] (current.join (folder.join ⟨name⟩)).components =
      .ok (.present (here ++ [name]) node) := by
    calc tree.walk true linkLimit [] (current.join (folder.join ⟨name⟩)).components
        = tree.walk true linkLimit [] ((current.join folder).components ++ [.name name]) := by
          rw [Path.join_join hne hname, Path.components_join hname]
      _ = tree.walk true left here [.name name] := hleft [.name name]
      _ = .ok (.present (here ++ [name]) node) := walk_singleton hnode hlink
  rw [locate, if_neg (Path.text_join_ne_empty hname), hpath]
  cases node with
  | file bytes => simp [saysFolder_join hname]
  | link target => rfl
  | folder => rfl

theorem isFolder_join {node : FileNode}
    (hlocate : tree.locate current folder true = .ok (.present here .folder))
    (hname : IsFileName name) (hnode : tree.node? (here ++ [name]) = some node)
    (hlink : ∀ target, node ≠ .link target) :
    tree.isFolder current (folder.join ⟨name⟩) = decide (node = .folder) := by
  rw [isFolder, locate_join hlocate hname hnode hlink]
  cases node <;> rfl

end Names

/-! ## The entries of a folder -/

section Entries

variable {fuel : Nat} {bytes : List UInt8} {rest : List String}

/-- The entry of a name in a folder whose path in the one that is listed is `prior`. -/
def entryAt (tree : FileTree) (current : Path) (wanted : Path → Bool) (fuel : Nat)
    (folder prior : Path) (name : String) : Listing :=
  if !tree.isFolder current (folder.join ⟨name⟩) then .file
  else if wanted (prior.join ⟨name⟩) then
    .folder (tree.entriesAt current wanted fuel (folder.join ⟨name⟩) (prior.join ⟨name⟩))
  else .folder []

theorem entriesAt_succ {prior : Path}
    (hlocate : tree.locate current folder true = .ok (.present here .folder)) :
    tree.entriesAt current wanted (fuel + 1) folder prior =
      (tree.namesIn here).map fun name =>
        (name, tree.entryAt current wanted fuel folder prior name) := by
  rw [entriesAt, hlocate]
  refine List.map_congr_left fun name _ => ?_
  simp only [entryAt]
  cases tree.isFolder current (folder.join ⟨name⟩)
  · rfl
  · cases wanted (prior.join ⟨name⟩) <;> rfl

/-- The files that are shown of a folder to which the names `prior` lead from the one that is
listed: those that are met before the fuel is used up and through folders that are wanted only. -/
structure IsShown (tree : FileTree) (wanted : Path → Bool) (fuel : Nat)
    (here prior names : List String) : Prop where
  length_le : names.length ≤ fuel
  isFile : ∃ bytes, tree.node? (here ++ names) = some (.file bytes)
  wanted : ∀ start, start ≠ [] → start <+: names → start ≠ names →
    wanted (ofNames (prior ++ start)) = true

theorem not_isShown_nil (h : tree.node? here = some .folder) :
    ¬ tree.IsShown wanted fuel here prior [] := by
  intro hshown
  obtain ⟨bytes, hfile⟩ := hshown.isFile
  simp [h] at hfile

theorem isShown_cons_of_folder (hnode : tree.node? (here ++ [name]) = some .folder) :
    tree.IsShown wanted (fuel + 1) here prior (name :: rest) ↔
      wanted (ofNames (prior ++ [name])) = true ∧
        tree.IsShown wanted fuel (here ++ [name]) (prior ++ [name]) rest := by
  constructor
  · rintro ⟨hlength, ⟨bytes, hfile⟩, hwanted⟩
    rw [List.append_cons] at hfile
    -- the names go on, since a folder is no file
    have hrest : rest ≠ [] := by
      rintro rfl
      simp [hnode] at hfile
    rw [forall_start_cons_iff] at hwanted
    refine ⟨hwanted.1 (by simpa using hrest.symm), Nat.le_of_succ_le_succ hlength,
      ⟨bytes, hfile⟩, ?_⟩
    intro start hne hstart hproper
    simpa using hwanted.2 start hne hstart (by simpa using hproper)
  · rintro ⟨hname, hlength, ⟨bytes, hfile⟩, hwanted⟩
    refine ⟨Nat.succ_le_succ hlength, ⟨bytes, by rwa [List.append_cons]⟩,
      forall_start_cons_iff.mpr ?_⟩
    refine ⟨fun _ => hname, fun start hne hstart hproper => ?_⟩
    simpa using hwanted start hne hstart (by simpa using hproper)

section Plain

variable (hplain : tree.IsPlainFolder base) (hbase : base <+: here)

include hplain hbase

theorem isSome_of_isShown_cons (h : tree.IsShown wanted fuel here prior (name :: rest)) :
    (tree.node? (here ++ [name])).isSome = true := by
  obtain ⟨bytes, hfile⟩ := h.isFile
  exact hplain.isSome_of_append_cons hbase (Option.isSome_of_eq_some hfile)

theorem isShown_cons_of_file (hnode : tree.node? (here ++ [name]) = some (.file bytes)) :
    tree.IsShown wanted (fuel + 1) here prior (name :: rest) ↔ rest = [] := by
  constructor
  · intro h
    by_contra hrest
    obtain ⟨other, hfile⟩ := h.isFile
    have hfolder := hplain.isFolder_of_append_cons hbase hrest (Option.isSome_of_eq_some hfile)
    rw [hnode] at hfolder
    cases hfolder
  · rintro rfl
    refine ⟨by simp, ⟨bytes, hnode⟩, forall_start_cons_iff.mpr ⟨fun h => absurd rfl h, ?_⟩⟩
    exact fun start hne hstart => absurd (List.prefix_nil.mp hstart) hne

variable (hlocate : tree.locate current folder true = .ok (.present here .folder))

include hlocate

theorem entryAt_of_file {prior : Path} (hnode : tree.node? (here ++ [name]) = some (.file bytes)) :
    tree.entryAt current wanted fuel folder prior name = .file := by
  have hname := hplain.isFileName here name hbase (Option.isSome_of_eq_some hnode)
  rw [entryAt, isFolder_join hlocate hname hnode (by simp)]
  simp

theorem entryAt_of_folder {prior : Path} (hnode : tree.node? (here ++ [name]) = some .folder) :
    tree.entryAt current wanted fuel folder prior name =
      .folder (if wanted (prior.join ⟨name⟩) then
        tree.entriesAt current wanted fuel (folder.join ⟨name⟩) (prior.join ⟨name⟩) else []) := by
  have hname := hplain.isFileName here name hbase (Option.isSome_of_eq_some hnode)
  rw [entryAt, isFolder_join hlocate hname hnode (by simp)]
  cases wanted (prior.join ⟨name⟩) <;> simp

theorem isFileTree_entriesAt {prior : Path} :
    IsFileTree (tree.entriesAt current wanted fuel folder prior) := by
  induction fuel generalizing folder here prior with
  | zero => exact .nil
  | succ fuel ih =>
      rw [entriesAt_succ hlocate]
      have hsome : ∀ n ∈ tree.namesIn here, (tree.node? (here ++ [n])).isSome = true :=
        fun n hn => mem_namesIn_iff.mp hn
      have hnames : ∀ n ∈ tree.namesIn here, IsFileName n :=
        fun n hn => hplain.isFileName here n hbase (hsome n hn)
      refine isFileTree_map (nodup_namesIn here) hnames fun n hn => ?_
      have hbelow : base <+: here ++ [n] := hbase.trans (List.prefix_append _ _)
      rcases hplain.file_or_folder hbelow (hsome n hn) with ⟨bytes, hfile⟩ | hfolder
      · exact .inl (entryAt_of_file hplain hbase hlocate hfile)
      · refine .inr ⟨_, entryAt_of_folder hplain hbase hlocate hfolder, ?_⟩
        split
        · exact ih hbelow (locate_join hlocate (hnames n hn) hfolder (by simp))
        · exact .nil

theorem mem_filesIn_entriesAt (hhere : tree.node? here = some .folder)
    (hprior : ∀ n ∈ prior, IsFileName n) :
    names ∈ filesIn (tree.entriesAt current wanted fuel folder (ofNames prior)) ↔
      tree.IsShown wanted fuel here prior names := by
  induction fuel generalizing folder here prior names with
  | zero =>
      refine iff_of_false (by simp [entriesAt, filesIn]) fun h => ?_
      obtain rfl := List.eq_nil_of_length_eq_zero (Nat.le_zero.mp h.length_le)
      exact not_isShown_nil hhere h
  | succ fuel ih =>
      -- the folder itself is no file in it, so the names start with an entry of it
      rcases names with _ | ⟨name, rest⟩
      · exact iff_of_false nil_notMem_filesIn (not_isShown_nil hhere)
      rw [entriesAt_succ hlocate, cons_mem_filesIn_map_iff, mem_namesIn_iff]
      by_cases hsome : (tree.node? (here ++ [name])).isSome = true
      · have hname := hplain.isFileName here name hbase hsome
        have hbelow : base <+: here ++ [name] := hbase.trans (List.prefix_append _ _)
        rcases hplain.file_or_folder hbelow hsome with ⟨bytes, hnode⟩ | hnode
        · rw [entryAt_of_file hplain hbase hlocate hnode, isShown_cons_of_file hplain hbase hnode]
          simp [hsome, Listing.files]
        · -- a folder is listed one level deeper, with its name behind the prior ones
          have hjoin := Path.ofNames_append_singleton hprior hname
          have hprior' : ∀ n ∈ prior ++ [name], IsFileName n := by
            simpa [or_imp, forall_and] using ⟨hprior, hname⟩
          have hinside := locate_join hlocate hname hnode (by simp)
          rw [entryAt_of_folder hplain hbase hlocate hnode, isShown_cons_of_folder hnode, ← hjoin,
            ← ih hbelow hinside hnode hprior', and_iff_right hsome]
          cases wanted (ofNames (prior ++ [name])) <;> simp [Listing.files, filesIn]
      · exact iff_of_false (fun h => hsome h.1) fun h =>
          hsome (isSome_of_isShown_cons hplain hbase h)

end Plain

/-- A plain folder is listed so that the search finds all its files. -/
theorem shows_entriesAt {exclude : List String} (hplain : tree.IsPlainFolder base)
    (hlocate : tree.locate current folder true = .ok (.present base .folder))
    (hfuel : tree.nodes.length ≤ fuel) :
    Shows exclude (fun names => ∃ bytes, tree.node? (base ++ names) = some (.file bytes))
      (tree.entriesAt current (isEntered exclude) fuel folder ⟨""⟩) where
  isFileTree := isFileTree_entriesAt hplain (List.prefix_refl base) hlocate
  isFileName := fun names ⟨_, hfile⟩ => hplain.isFileName_of_mem (Option.isSome_of_eq_some hfile)
  mem_filesIn_iff := by
    intro names hentered
    rw [← Path.ofNames_nil,
      mem_filesIn_entriesAt hplain (List.prefix_refl base) hlocate hplain.isFolder (by simp)]
    constructor
    · exact fun h => h.isFile
    · rintro ⟨bytes, hfile⟩
      have hlength := hplain.length_le (Option.isSome_of_eq_some hfile)
      exact ⟨hlength.trans hfuel, ⟨bytes, hfile⟩, hentered⟩

end Entries

/-! ## Discovery in a tree -/

/-- A plain folder can be listed. -/
theorem exists_list_eq {exclude : List String} (hplain : tree.IsPlainFolder base)
    (hlocate : tree.locate current folder true = .ok (.present base .folder)) :
    ∃ entries, tree.list current folder (isEntered exclude) = .ok entries ∧
      Shows exclude (fun names => ∃ bytes, tree.node? (base ++ names) = some (.file bytes))
        entries := by
  have hfuel : tree.nodes.length ≤ (linkLimit + 1) * (tree.nodes.length + 1) := by
    unfold linkLimit
    omega
  refine ⟨_, ?_, shows_entriesAt hplain hlocate hfuel⟩
  rw [list, hlocate]

theorem run_isFolder :
    ((access current).isFolder folder).run tree = (tree.isFolder current folder, tree) := rfl

theorem run_list :
    ((access current).list folder wanted).run tree = (tree.list current folder wanted, tree) := rfl

/-- A step and what comes after it run one after the other. -/
theorem run_bind_eq {α β : Type} {operation : StateM FileTree α} {next : α → StateM FileTree β}
    {after : FileTree} {a : α} (h : operation.run tree = (a, after)) :
    (operation >>= next).run tree = (next a).run after := by
  have hbind : (operation >>= next).run tree =
      (next (operation.run tree).1).run (operation.run tree).2 := rfl
  rw [hbind, h]

/-- The search for SQL files lists a folder and leaves the tree as it is. -/
theorem listSql_run {exclude : List String} {entries : List (String × Listing)}
    (hfolder : tree.isFolder current folder = true)
    (hlist : tree.list current folder (isEntered exclude) = .ok entries) :
    ((access current).listSql exclude folder).run tree = (.ok entries, tree) := by
  rw [FileAccess.listSql, run_bind_eq run_isFolder, hfolder]
  simp only [Bool.not_true, Bool.false_eq_true, if_false]
  rw [run_bind_eq run_list, hlist]
  rfl

end FileTree

/-- The search for SQL files returns exactly the wanted ones, whatever the folder holds and in
whatever order it is listed.

* In every tree of listed files and folders it finds the wanted files, strictly ascending and with
  nothing unreadable.
* Listings that show the same files where the search looks give the same discovery: neither the
  order of their entries nor what they show of other folders matters.
* A folder of a file tree with nothing but files and folders in it can be searched, and the wanted
  files among those that stand in it are found. -/
theorem discovery_is_exact (exclude : List String) :
    (∀ entries, IsFileTree entries →
      IsDiscoveryOf exclude (· ∈ filesIn entries) (discover exclude entries)) ∧
    (∀ isFile entries others, Shows exclude isFile entries → Shows exclude isFile others →
      discover exclude entries = discover exclude others) ∧
    ∀ (tree : FileTree) (current folder : Path) (base : List String), tree.IsPlainFolder base →
      tree.locate current folder true = .ok (.present base .folder) →
      ∃ entries, ((FileTree.access current).listSql exclude folder).run tree = (.ok entries, tree) ∧
        IsDiscoveryOf exclude (fun names => ∃ bytes, tree.node? (base ++ names) =
          some (.file bytes))
          (discover exclude entries) := by
  refine ⟨?_, ?_, ?_⟩
  · exact fun entries h => isDiscoveryOf_discover (shows_filesIn h)
  · intro isFile entries others hentries hothers
    exact (isDiscoveryOf_discover hentries).unique (isDiscoveryOf_discover hothers)
  · intro tree current folder base hplain hlocate
    obtain ⟨entries, hlist, hshows⟩ := FileTree.exists_list_eq hplain hlocate
    have hfolder : tree.isFolder current folder = true := by rw [FileTree.isFolder, hlocate]
    exact ⟨entries, FileTree.listSql_run hfolder hlist, isDiscoveryOf_discover hshows⟩

/-- Two listings of a folder in different orders, the second without what is left out, and a tree
with that folder. -/
theorem discovery_of_small_folder :
    let exclude := ["./old/"]
    let entries : List (String × Listing) := [("old", .folder [("b.sql", .file)]), ("a.SQL", .file)]
    let others : List (String × Listing) := [("a.SQL", .file), ("old", .folder [])]
    let tree : FileTree :=
      ⟨[(["old"], .folder), (["old", "b.sql"], .file []), (["a.SQL"], .file [])]⟩
    (IsFileTree entries ∧ IsDiscoveryOf exclude (· ∈ filesIn entries) (discover exclude entries) ∧
      discover exclude entries = ⟨[⟨"a.SQL"⟩], []⟩) ∧
    (Shows exclude (· ∈ filesIn entries) others ∧
      discover exclude entries = discover exclude others) ∧
    tree.IsPlainFolder [] ∧ tree.locate ⟨"/"⟩ ⟨"."⟩ true = .ok (.present [] .folder) ∧
      ∃ listed, ((FileTree.access ⟨"/"⟩).listSql exclude ⟨"."⟩).run tree = (.ok listed, tree) ∧
        IsDiscoveryOf exclude (fun names => ∃ bytes, tree.node? names = some (.file bytes))
          (discover exclude listed) := by
  intro exclude entries others tree
  have hold : IsFileName "old" := ⟨by decide, by decide, by decide, by decide⟩
  have ha : IsFileName "a.SQL" := ⟨by decide, by decide, by decide, by decide⟩
  have hb : IsFileName "b.sql" := ⟨by decide, by decide, by decide, by decide⟩
  -- the first listing is a tree of files
  have hentries : IsFileTree entries :=
    .folder hold (by decide) (.file hb (by decide) .nil) (.file ha (by decide) .nil)
  -- the other listing leaves out only a file in the excluded folder
  have hothers : Shows exclude (· ∈ filesIn entries) others := by
    refine ⟨.file ha (by decide) (.folder hold (by decide) .nil .nil),
      fun names hnames => isFileName_of_mem_filesIn hentries hnames, fun names hentered => ?_⟩
    have hfiles : filesIn entries = ["old", "b.sql"] :: filesIn others := by decide
    rw [hfiles, List.mem_cons, or_iff_right]
    rintro rfl
    have hleft := hentered ["old"] (by decide) (by decide) (by decide)
    revert hleft
    decide
  -- the tree holds three paths, so a path in it is one of three
  have hplaces : ∀ names name, (tree.node? (names ++ [name])).isSome = true →
      (names = [] ∧ name = "old") ∨ (names = ["old"] ∧ name = "b.sql") ∨
      (names = [] ∧ name = "a.SQL") := by
    intro names name h
    rw [FileTree.node?, if_neg (by simp), List.lookup_isSome_iff] at h
    obtain ⟨⟨key, node⟩, hmem, hkey⟩ := h
    obtain rfl : names ++ [name] = key := by simpa using hkey
    simp only [tree, List.mem_cons, Prod.mk.injEq, List.not_mem_nil, or_false] at hmem
    have hends : ∀ start last, names ++ [name] = start ++ [last] → names = start ∧ name = last :=
      fun start last h => by simpa using List.append_inj' h rfl
    rcases hmem with ⟨h, -⟩ | ⟨h, -⟩ | ⟨h, -⟩
    · exact .inl (hends [] "old" h)
    · exact .inr (.inl (hends ["old"] "b.sql" h))
    · exact .inr (.inr (hends [] "a.SQL" h))
  -- so its folders are plain: names are names of files, parents are folders, and nothing is a link
  have htree : tree.IsPlainFolder [] := by
    refine ⟨rfl, fun names name _ h => ?_, fun names name _ h => ?_, fun names target _ h => ?_⟩
    · rcases hplaces names name h with ⟨rfl, rfl⟩ | ⟨rfl, rfl⟩ | ⟨rfl, rfl⟩ <;> rfl
    · rcases hplaces names name h with ⟨rfl, rfl⟩ | ⟨rfl, rfl⟩ | ⟨rfl, rfl⟩
      exacts [hold, hb, ha]
    · rcases List.eq_nil_or_concat' names with rfl | ⟨start, last, rfl⟩
      · cases h
      · rcases hplaces start last (Option.isSome_of_eq_some h) with
          ⟨rfl, rfl⟩ | ⟨rfl, rfl⟩ | ⟨rfl, rfl⟩ <;>
          cases h
  have hlocate : tree.locate ⟨"/"⟩ ⟨"."⟩ true = .ok (.present [] .folder) := by cbv
  -- the three parts of the general theorem, for the listing, for both listings and for the tree
  obtain ⟨hexact, halike, hsearch⟩ := discovery_is_exact exclude
  exact ⟨⟨hentries, hexact entries hentries, by decide +kernel⟩,
    ⟨hothers, halike _ entries others (shows_filesIn hentries) hothers⟩,
    htree, hlocate, hsearch tree _ _ [] htree hlocate⟩

end TableLineage
