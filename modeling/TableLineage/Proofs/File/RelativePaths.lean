import Mathlib.Data.List.Infix
import Mathlib.Data.List.TakeWhile
import TableLineage.File.Path
import TableLineage.Proofs.Text.Search

/-!
# Paths made of names

A file is found by the names on the way to it.  `Path.ofNames` writes them with slashes between
them, and whatever is asked of such a path can be read off the names:

* a name that is joined to a path is its last component (`Path.components_join`) and its file name
  (`Path.fileName?_join`), however the path is written;
* joining one name after the other writes them with slashes between them
  (`Path.ofNames_append_singleton`), and they are the components (`Path.components_ofNames`);
* the extension of a name is what stands after its last dot, provided that something stands before
  that dot (`Path.cutName_extension_iff`).
-/

namespace TableLineage

/-- What a file or a folder can be called. -/
structure IsFileName (name : String) : Prop where
  ne_empty : name ≠ ""
  ne_here : name ≠ "."
  ne_parent : name ≠ ".."
  slash_notMem : '/' ∉ name.toList

namespace IsFileName

variable {name : String} (hname : IsFileName name)

include hname

theorem toList_ne_nil : name.toList ≠ [] := by
  simpa using hname.ne_empty

theorem head?_ne_slash : name.toList.head? ≠ some '/' :=
  fun h => hname.slash_notMem (List.mem_of_head? h)

theorem getLast?_ne_slash : name.toList.getLast? ≠ some '/' :=
  fun h => hname.slash_notMem (List.mem_of_getLast? h)

theorem isAbsolute_eq_false : (Path.mk name).isAbsolute = false := by
  simp [Path.isAbsolute, hname.head?_ne_slash]

theorem ofPiece?_eq : PathComponent.ofPiece? name = some (.name name) := by
  simp [PathComponent.ofPiece?, hname.ne_empty, hname.ne_here, hname.ne_parent]

end IsFileName

namespace Path

/-! ## Joining a name -/

section Join

variable {folder current : Path} {name : String}

/-- What the start of a path's text counts for. -/
def start (path : Path) : List PathComponent :=
  if path.isAbsolute then [.root] else if path.startsHere then [.here] else []

/-- What the pieces between the slashes of a path count for. -/
def pieces (path : Path) : List PathComponent :=
  (Text.splitAtChar '/' path.text).filterMap PathComponent.ofPiece?

theorem components_eq (path : Path) : path.components = path.start ++ path.pieces := by
  unfold components start
  split
  · rfl
  · split <;> rfl

/-- A name is written after a path with a slash between them, unless the path has one there. -/
theorem text_join (hname : IsFileName name) :
    (folder.join ⟨name⟩).text =
      folder.text ++
        (if folder.text = "" ∨ folder.text.toList.getLast? = some '/' then "" else "/") ++
        name := by
  simp only [join, hname.isAbsolute_eq_false, Bool.false_eq_true, if_false]
  split <;> simp

theorem text_join_ne_empty (hname : IsFileName name) : (folder.join ⟨name⟩).text ≠ "" := by
  simp [text_join hname, hname.ne_empty]

theorem start_join (hname : IsFileName name) : (folder.join ⟨name⟩).start = folder.start := by
  have hempty : folder.text = "" ↔ folder.text.toList = [] := by simp
  have hhere : ∀ text : String, text = "." ↔ text.toList = ['.'] := fun text => by
    rw [← String.toList_inj]
    rfl
  have hnotHere : name.toList ≠ ['.'] := fun h => hname.ne_here ((hhere name).mpr h)
  have hnotPrefix : ¬ ['.', '/'] <+: name.toList := fun h => hname.slash_notMem (h.subset (by simp))
  unfold start isAbsolute startsHere
  simp only [beq_iff_eq, Bool.or_eq_true, hhere, text_join hname, hempty, String.toList_append,
    List.isPrefixOf_iff_prefix]
  -- two characters tell what a path starts with, and the slash before the name may be the second
  rcases folder.text.toList with _ | ⟨c, _ | ⟨d, rest⟩⟩
  · simp [hnotHere, hname.head?_ne_slash, hnotPrefix]
  · by_cases hc : c = '/' <;> simp [hc, @eq_comm _ '.' c]
  · simp

theorem pieces_join (hname : IsFileName name) :
    (folder.join ⟨name⟩).pieces = folder.pieces ++ [.name name] := by
  have hempty : PathComponent.ofPiece? "" = none := rfl
  have hlast : [name].filterMap PathComponent.ofPiece? = [.name name] :=
    List.filterMap_cons_some hname.ofPiece?_eq
  have hwhole : name.toList.splitOnP (· == '/') = [name.toList] :=
    List.splitOnP_eq_singleton fun c hc => by
      simpa using fun h : c = '/' => hname.slash_notMem (h ▸ hc)
  -- a name holds no slash, so it is the one piece behind the last slash
  have hsplit : ∀ before : List Char, (before ++ '/' :: name.toList).splitOnP (· == '/') =
      before.splitOnP (· == '/') ++ [name.toList] := fun before => by
    rw [List.splitOnP_append_cons before name.toList (by simp), hwhole]
  simp only [pieces, Text.splitAtChar, Text.splitOnP_eq, text_join hname, String.toList_append]
  split
  case isTrue h =>
    rcases h with h | hslash
    · -- the folder has no text or ends with a slash: no slash is put between
      simp [h, hwhole, hlast, hempty]
    · obtain ⟨before, hbefore⟩ := List.getLast?_eq_some_iff.mp hslash
      have hend : (before ++ ['/']).splitOnP (· == '/') = before.splitOnP (· == '/') ++ [[]] := by
        rw [List.splitOnP_append_cons before [] (by simp), List.splitOnP_nil]
      simp [hbefore, hsplit, hend, hlast, hempty]
  case isFalse h =>
    simp [hsplit, hlast]

/-- A name that is joined to a path is one more component. -/
theorem components_join (hname : IsFileName name) :
    (folder.join ⟨name⟩).components = folder.components ++ [.name name] := by
  rw [components_eq, components_eq, start_join hname, pieces_join hname, List.append_assoc]

theorem fileName?_join (hname : IsFileName name) : (folder.join ⟨name⟩).fileName? = some name := by
  simp [fileName?, components_join hname]

/-- Relative paths are taken from within a folder by writing them after one and the same text. -/
theorem exists_join_eq (current : Path) :
    ∃ before, ∀ path : Path, path.isAbsolute = false →
      current.join path = ⟨before ++ path.text⟩ := by
  by_cases h : current.text = "" ∨ current.text.toList.getLast? = some '/'
  · refine ⟨current.text, fun path hpath => ?_⟩
    rw [join, hpath, if_neg Bool.false_ne_true, if_pos h]
  · refine ⟨current.text ++ "/", fun path hpath => ?_⟩
    rw [join, hpath, if_neg Bool.false_ne_true, if_neg h]

/-- It does not matter whether a name is joined to a path before or after the path is taken from
within a folder. -/
theorem join_join (hfolder : folder.text ≠ "") (hname : IsFileName name) :
    current.join (folder.join ⟨name⟩) = (current.join folder).join ⟨name⟩ := by
  have hne : folder.text.toList ≠ [] := by simpa using hfolder
  -- a joined path is absolute just if the folder is
  have habsolute : (folder.join ⟨name⟩).isAbsolute = folder.isAbsolute := by
    simp only [isAbsolute, text_join hname, String.toList_append, List.append_assoc]
    rw [List.head?_append_of_ne_nil _ hne]
  cases h : folder.isAbsolute with
  | true =>
      have hjoin : current.join (folder.join ⟨name⟩) = folder.join ⟨name⟩ := by
        rw [join, habsolute, h, if_pos rfl]
      have hfolderJoin : current.join folder = folder := by
        rw [join, h, if_pos rfl]
      rw [hjoin, hfolderJoin]
  | false =>
      obtain ⟨before, hbefore⟩ := exists_join_eq current
      -- both joins put a slash before the name, or neither does
      have hend :
          (before ++ folder.text = "" ∨ (before ++ folder.text).toList.getLast? = some '/') ↔
          (folder.text = "" ∨ folder.text.toList.getLast? = some '/') := by
        rw [String.toList_append, List.getLast?_append_of_ne_nil _ hne, String.append_eq_empty_iff]
        exact or_congr (and_iff_right_of_imp fun h => absurd h hfolder) Iff.rfl
      rw [hbefore _ (habsolute.trans h), hbefore folder h]
      have htext : before ++ (folder.join ⟨name⟩).text =
          (join ⟨before ++ folder.text⟩ ⟨name⟩).text := by
        simp only [text_join hname, hend, String.append_assoc]
      exact congrArg Path.mk htext

end Join

/-! ## Names with slashes between them -/

section Names

variable {names : List String} {name : String}

/-- The path that leads through folders to the last of some names. -/
def ofNames (names : List String) : Path :=
  ⟨"/".intercalate names⟩

theorem ofNames_nil : ofNames [] = ⟨""⟩ := rfl

theorem exists_text_ofNames (names : List String) (last : String) :
    ∃ before, (ofNames (names ++ [last])).text = before ++ last := by
  cases names with
  | nil => exact ⟨"", by simp [ofNames]⟩
  | cons first names =>
      refine ⟨"/".intercalate (first :: names) ++ "/", ?_⟩
      rw [ofNames, String.intercalate_append_of_ne_nil (List.cons_ne_nil _ _)
        (List.cons_ne_nil _ _), String.intercalate_singleton]

theorem ofNames_append_singleton (hnames : ∀ n ∈ names, IsFileName n) (hname : IsFileName name) :
    ofNames (names ++ [name]) = (ofNames names).join ⟨name⟩ := by
  have htext : (ofNames (names ++ [name])).text = ((ofNames names).join ⟨name⟩).text := by
    rw [text_join hname]
    rcases List.eq_nil_or_concat' names with rfl | ⟨names, last, rfl⟩
    · simp [ofNames]
    · have hlast : IsFileName last := hnames last (by simp)
      obtain ⟨before, hbefore⟩ := exists_text_ofNames names last
      have hslash : ¬ ((ofNames (names ++ [last])).text = "" ∨
          (ofNames (names ++ [last])).text.toList.getLast? = some '/') := by
        rw [hbefore, String.toList_append, List.getLast?_append_of_ne_nil _ hlast.toList_ne_nil,
          String.append_eq_empty_iff]
        exact not_or.mpr ⟨fun h => hlast.ne_empty h.2, hlast.getLast?_ne_slash⟩
      rw [if_neg hslash, ofNames, ofNames, String.intercalate_append_of_ne_nil (by simp) (by simp),
        String.intercalate_singleton]
  exact congrArg Path.mk htext

theorem components_ofNames (hnames : ∀ n ∈ names, IsFileName n) :
    (ofNames names).components = names.map .name := by
  induction names using List.reverseRecOn with
  | nil => rfl
  | append_singleton names name ih =>
      have hnames' : ∀ n ∈ names, IsFileName n := fun n hn => hnames n (by simp [hn])
      have hname : IsFileName name := hnames name (by simp)
      rw [ofNames_append_singleton hnames' hname, components_join hname, ih hnames',
        List.map_append, List.map_singleton]

end Names

/-! ## Extensions -/

section Extension

variable {name : String}

theorem cutName_of_dot_notMem (h : '.' ∉ name.toList) : cutName name = (name, none) := by
  have htake : name.toList.reverse.takeWhile (· != '.') = name.toList.reverse :=
    List.takeWhile_eq_self_iff.mpr fun c hc => by
      simpa using fun hdot : c = '.' => h (hdot ▸ List.mem_reverse.mp hc)
  simp only [cutName, htake, List.drop_length]

theorem cutName_of_eq {stem extension : List Char} (hname : name.toList = stem ++ '.' :: extension)
    (hextension : '.' ∉ extension) :
    cutName name =
      if stem = [] then (name, none) else (String.ofList stem, some (String.ofList extension)) := by
  have hreverse : name.toList.reverse = extension.reverse ++ '.' :: stem.reverse := by
    simp [hname]
  have htake : (extension.reverse ++ '.' :: stem.reverse).takeWhile (· != '.') =
      extension.reverse := by
    rw [List.takeWhile_append_of_pos]
    · simp
    · intro c hc
      simpa using fun hdot : c = '.' => hextension (hdot ▸ List.mem_reverse.mp hc)
  simp only [cutName, hreverse, htake, List.drop_left]
  simp

/-- The extension of a name is what stands after its last dot, if something stands before that
dot. -/
theorem cutName_extension_iff {extension : String} :
    (cutName name).2 = some extension ↔
      ∃ stem, stem ≠ "" ∧ name = stem ++ "." ++ extension ∧ '.' ∉ extension.toList := by
  constructor
  · intro h
    by_cases hdot : '.' ∈ name.toList
    · -- the last dot of the name is the first one from the end
      obtain ⟨after, before, hreverse, hafter⟩ :=
        List.eq_append_cons_of_mem (List.mem_reverse.mpr hdot)
      have hname : name.toList = before.reverse ++ '.' :: after.reverse := by
        simpa using congrArg List.reverse hreverse
      rw [cutName_of_eq hname (by simpa using hafter)] at h
      split at h
      case isTrue => cases h
      case isFalse hbefore =>
        obtain rfl : String.ofList after.reverse = extension := by simpa using h
        refine ⟨String.ofList before.reverse, by simpa using hbefore, ?_, by simpa using hafter⟩
        rw [← String.toList_inj, hname]
        simp
    · rw [cutName_of_dot_notMem hdot] at h
      cases h
  · rintro ⟨stem, hstem, rfl, hextension⟩
    have htext : (stem ++ "." ++ extension).toList = stem.toList ++ '.' :: extension.toList := by
      simp
    rw [cutName_of_eq htext hextension, if_neg (by simpa using hstem), String.ofList_toList,
      String.ofList_toList]

end Extension

end Path

end TableLineage
