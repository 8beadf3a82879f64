import TableLineage.Diagram.Flowchart
import TableLineage.Diagram.Mermaid
import TableLineage.Proofs.Text.Search
import TableLineage.Proofs.Text.Trimming

/-!
# Reading written lines

An id is written bare or in quotes, and what was written is read back before any text that cannot
continue a bare id (`id?_writtenId`).  A written id starts and ends with a character of bare ids or
with a quote, so the blanks before a line are all that trimming removes, and the line is no comment.
It is no header either: the first word of the line of an edge holds a hyphen or starts with a quote,
and reserved words are never written bare.  So the line of an edge is read as that edge
(`ofText_edgeLine`) and the line of a node as that node (`ofText_nodeLine`).

The one thing that is needed of an id is that the escape `#quot;` does not stand in it already.
-/

namespace TableLineage

namespace Flowchart

variable {c : Char} {id source target : String} {bare body rest text : List Char}

/-- The text `#quot;`, which stands for a quote. -/
abbrev quoteEscape : List Char :=
  ['#', 'q', 'u', 'o', 't', ';']

/-! ## Ids -/

theorem unescape_eq (text : List Char) :
    unescape text = String.ofList (Text.replaceFrom quoteEscape ['"'] 0 text) := by
  simp [unescape, Text.replaceAll]

theorem unescape_of_not_infix (h : ¬ quoteEscape <:+: text) :
    unescape text = String.ofList text := by
  rw [unescape_eq, Text.replaceFrom_of_not_infix (List.cons_ne_nil _ _) h]

/-- What is escaped is read back, unless the escape stood in the text. -/
theorem unescape_escaped (h : ¬ quoteEscape <:+: text) :
    unescape (Text.replaceFrom ['"'] quoteEscape 0 text) = String.ofList text := by
  rw [unescape_eq, Text.replaceFrom_replaceFrom (by decide) h]

theorem id?_quoted (hquote : '"' ∉ body) (hbody : body ≠ []) :
    id? ('"' :: (body ++ '"' :: rest)) = some (unescape body, rest) := by
  have hall : ∀ c ∈ body, (c != '"') = true := by
    intro c hc
    rw [bne_iff_ne]
    rintro rfl
    exact hquote hc
  have hinside : (body ++ '"' :: rest).takeWhile (· != '"') = body := by
    rw [List.takeWhile_append_of_pos hall]
    simp
  simp [id?, hinside, hbody]

theorem id?_bare (hbare : bare.all isIdChar = true) (hne : bare ≠ [])
    (hrest : rest.head?.any isIdChar = false) :
    id? (bare ++ rest) = some (unescape bare, rest) := by
  have hall : ∀ c ∈ bare, isIdChar c = true := List.all_eq_true.mp hbare
  have htake : (bare ++ rest).takeWhile isIdChar = bare := by
    rw [List.takeWhile_append_of_pos hall]
    cases rest with
    | nil => simp
    | cons d rest =>
        have hd : ¬ isIdChar d = true := by simpa using hrest
        rw [List.takeWhile_cons_of_neg hd, List.append_nil]
  obtain ⟨c, bare, rfl⟩ := List.exists_cons_of_ne_nil hne
  have hquote : c ≠ '"' := by
    rintro rfl
    exact absurd (hall '"' List.mem_cons_self) (by decide)
  rw [id?, htake]
  · simp
  · intro body h
    exact hquote (List.cons.inj h).1

/-- An id is written bare if that is safe, and in quotes otherwise. -/
theorem writtenId_cases (id : String) :
    (Mermaid.isSafe id = true ∧ Mermaid.writtenId id = id) ∨
      (Mermaid.writtenId id).toList =
        '"' :: (Text.replaceFrom ['"'] quoteEscape 0 id.toList ++ ['"']) := by
  rw [Mermaid.writtenId]
  split
  case isTrue hsafe => exact .inl ⟨hsafe, rfl⟩
  case isFalse => exact .inr (by simp [Text.replaceAll, quoteEscape])

/-- A written id is read back. -/
theorem id?_writtenId (hne : id ≠ "") (hescape : ¬ quoteEscape <:+: id.toList)
    (hrest : rest.head?.any isIdChar = false) :
    id? ((Mermaid.writtenId id).toList ++ rest) = some (id, rest) := by
  have hlist : id.toList ≠ [] := by simpa using hne
  rcases writtenId_cases id with ⟨hsafe, hwritten⟩ | hwritten
  · simp only [Mermaid.isSafe, Bool.and_eq_true] at hsafe
    rw [hwritten, id?_bare hsafe.1.1.2 hlist hrest, unescape_of_not_infix hescape,
      String.ofList_toList]
  · have hquote : '"' ∉ Text.replaceFrom ['"'] quoteEscape 0 id.toList := by
      rw [← List.singleton_infix_iff]
      exact Text.not_infix_replaceFrom (List.cons_ne_nil _ _) (by simp)
    have hbody : Text.replaceFrom ['"'] quoteEscape 0 id.toList ≠ [] :=
      mt (Text.replaceFrom_eq_nil_iff (List.cons_ne_nil _ _)).mp hlist
    -- the quotes in the id are escaped, so the first bare one closes
    rw [hwritten, List.cons_append, List.append_assoc, List.singleton_append,
      id?_quoted hquote hbody]
    rw [unescape_escaped hescape, String.ofList_toList]

/-! ## The ends of written ids -/

/-- The characters with which written ids start and end. -/
def isEnd (c : Char) : Bool :=
  isIdChar c || c == '"'

theorem toNat_of_isEnd (h : isEnd c = true) : 0x21 ≤ c.toNat ∧ c.toNat ≤ 0x7E := by
  unfold isEnd isIdChar Char.isAlphanum Char.isAlpha Char.isUpper Char.isLower Char.isDigit at h
  simp only [Bool.or_eq_true, Bool.and_eq_true, decide_eq_true_eq, beq_iff_eq, ge_iff_le,
    UInt32.le_iff_toNat_le] at h
  have hcode : c.toNat = c.val.toNat := rfl
  rcases h with (((((hupper | hlower) | hdigit) | rfl) | rfl) | rfl) | rfl
  · have hbounds : 65 ≤ c.val.toNat ∧ c.val.toNat ≤ 90 := hupper
    omega
  · have hbounds : 97 ≤ c.val.toNat ∧ c.val.toNat ≤ 122 := hlower
    omega
  · have hbounds : 48 ≤ c.val.toNat ∧ c.val.toNat ≤ 57 := hdigit
    omega
  all_goals decide

theorem isBlank_of_isEnd (h : isEnd c = true) : Text.isBlank c = false := by
  have hc := toNat_of_isEnd h
  simp only [Text.isBlank, Text.blankRanges, Text.CodeRanges.contains]
  grind

/-- A written id starts and ends with a character of bare ids or with a quote. -/
theorem ends_writtenId (hne : id ≠ "") :
    (Mermaid.writtenId id).toList.head?.any isEnd = true ∧
      (Mermaid.writtenId id).toList.getLast?.any isEnd = true := by
  rcases writtenId_cases id with ⟨hsafe, hwritten⟩ | hwritten
  · simp only [Mermaid.isSafe, Bool.and_eq_true] at hsafe
    have hall : ∀ c ∈ id.toList, isEnd c = true := by
      intro c hc
      rw [isEnd, show isIdChar c = true from List.all_eq_true.mp hsafe.1.1.2 c hc, Bool.true_or]
    have hlist : id.toList ≠ [] := by simpa using hne
    rw [hwritten, List.head?_eq_some_head hlist, List.getLast?_eq_some_getLast hlist]
    exact ⟨hall _ (List.head_mem hlist), hall _ (List.getLast_mem hlist)⟩
  · rw [hwritten, ← List.cons_append, List.getLast?_concat]
    exact ⟨rfl, rfl⟩

theorem head?_any_append {p : Char → Bool} (h : text.head?.any p = true) (rest : List Char) :
    (text ++ rest).head?.any p = true := by
  cases text with
  | nil => exact absurd h (by simp)
  | cons c text => exact h

theorem getLast?_any_append {p : Char → Bool} (h : text.getLast?.any p = true)
    (before : List Char) :
    (before ++ text).getLast?.any p = true := by
  rw [← List.head?_reverse] at h ⊢
  rw [List.reverse_append]
  exact head?_any_append h before.reverse

/-! ## Headers -/

theorem isHeader_of_mem (hmem : c ∈ text.takeWhile fun c => !Text.isBlank c)
    (hflowchart : c ∉ "flowchart".toList) (hgraph : c ∉ "graph".toList) :
    isHeader text = false := by
  rw [isHeader, Bool.or_eq_false_iff, beq_eq_false_iff_ne, beq_eq_false_iff_ne]
  constructor <;> intro hfirst
  · rw [← hfirst, String.toList_ofList] at hflowchart
    exact hflowchart hmem
  · rw [← hfirst, String.toList_ofList] at hgraph
    exact hgraph hmem

theorem isHeader_quoted (text : List Char) : isHeader ('"' :: text) = false := by
  apply isHeader_of_mem (c := '"')
  · simp [show Text.isBlank '"' = false by decide]
  all_goals decide

theorem takeWhile_bare (hbare : bare.all isIdChar = true) (rest : List Char) :
    (bare ++ rest).takeWhile (fun c => !Text.isBlank c) =
      bare ++ rest.takeWhile fun c => !Text.isBlank c := by
  apply List.takeWhile_append_of_pos
  intro c hc
  have hend : isEnd c = true := by rw [isEnd, List.all_eq_true.mp hbare c hc, Bool.true_or]
  rw [isBlank_of_isEnd hend]
  rfl

/-- A line in which an id comes before an arrow is no header. -/
theorem isHeader_arrow (id : String) (rest : List Char) :
    isHeader ((Mermaid.writtenId id).toList ++ '-' :: rest) = false := by
  rcases writtenId_cases id with ⟨hsafe, hwritten⟩ | hwritten
  · simp only [Mermaid.isSafe, Bool.and_eq_true] at hsafe
    apply isHeader_of_mem (c := '-')
    · rw [hwritten, takeWhile_bare hsafe.1.1.2]
      simp [show Text.isBlank '-' = false by decide]
    all_goals decide
  · rw [hwritten, List.cons_append]
    exact isHeader_quoted _

/-- A line with an id only is no header: the words of headers are reserved. -/
theorem isHeader_writtenId (id : String) : isHeader (Mermaid.writtenId id).toList = false := by
  rcases writtenId_cases id with ⟨hsafe, hwritten⟩ | hwritten
  · have hflowchart : id ≠ "flowchart" := by
      rintro rfl
      exact absurd hsafe (by decide)
    have hgraph : id ≠ "graph" := by
      rintro rfl
      exact absurd hsafe (by decide)
    simp only [Mermaid.isSafe, Bool.and_eq_true] at hsafe
    have hfirst := takeWhile_bare hsafe.1.1.2 []
    rw [List.append_nil, List.takeWhile_nil, List.append_nil] at hfirst
    simp [hwritten, isHeader, hfirst, hflowchart, hgraph]
  · rw [hwritten]
    exact isHeader_quoted _

/-! ## Lines -/

theorem ofText_indented {line : Line} (hhead : text.head?.any isEnd = true)
    (hlast : text.getLast?.any isEnd = true) (hheader : isHeader text = false)
    (hstatement : statement? text = some line) :
    Line.ofText ([' ', ' ', ' ', ' '] ++ text) = line := by
  have hnotBlank : ∀ end? : Option Char, end?.any isEnd = true → end?.any Text.isBlank = false := by
    intro end? h
    cases end? with
    | none => rfl
    | some c => exact isBlank_of_isEnd h
  have htrimmed : Text.trimWhile Text.isBlank ([' ', ' ', ' ', ' '] ++ text) = text := by
    rw [Text.trimWhile_append (by decide),
      Text.trimWhile_eq_self (hnotBlank _ hhead) (hnotBlank _ hlast)]
  -- the line is neither empty nor a comment, because its first character ends no id
  have hempty : text.isEmpty = false := by
    cases text with
    | nil => exact absurd hhead (by decide)
    | cons c rest => rfl
  have hcomment : ['%', '%'].isPrefixOf text = false := by
    rw [Bool.eq_false_iff, ne_eq, List.isPrefixOf_iff_prefix]
    rintro ⟨rest, rfl⟩
    have hpercent : isEnd '%' = true := hhead
    exact absurd hpercent (by decide)
  rw [Line.ofText, htrimmed, hempty, hcomment, hheader, hstatement]
  rfl

theorem edgeLine_toList (edge : DiagramEdge) :
    (Mermaid.edgeLine edge).toList =
      [' ', ' ', ' ', ' '] ++ ((Mermaid.writtenId edge.source).toList ++
        '-' :: '-' :: '>' :: (Mermaid.writtenId edge.target).toList) := by
  simp [Mermaid.edgeLine]

theorem nodeLine_toList (node : DiagramNode) :
    (Mermaid.nodeLine node).toList =
      [' ', ' ', ' ', ' '] ++ (Mermaid.writtenId node.id).toList := by
  simp [Mermaid.nodeLine]

theorem afterBlanks_eq_self (h : text.head?.any isEnd = true) : afterBlanks text = text := by
  apply Text.dropWhile_eq_self
  cases text with
  | nil => rfl
  | cons c rest => exact isBlank_of_isEnd h

/-- The line of an edge is read as the edge. -/
theorem ofText_edgeLine (hsource : source ≠ "") (htarget : target ≠ "")
    (hsource' : ¬ quoteEscape <:+: source.toList) (htarget' : ¬ quoteEscape <:+: target.toList) :
    Line.ofText (Mermaid.edgeLine ⟨source, target⟩).toList = .edge source target := by
  have hstart := ends_writtenId hsource
  have hend := ends_writtenId htarget
  have hread : id? (afterBlanks (Mermaid.writtenId target).toList) = some (target, []) := by
    rw [afterBlanks_eq_self hend.1, ← List.append_nil (Mermaid.writtenId target).toList]
    exact id?_writtenId htarget htarget' rfl
  have harrow : ∀ rest, afterBlanks ('-' :: rest) = '-' :: rest := fun rest =>
    Text.dropWhile_eq_self rfl
  rw [edgeLine_toList]
  apply ofText_indented
  · exact head?_any_append hstart.1 _
  · have hlast := getLast?_any_append hend.2 ((Mermaid.writtenId source).toList ++ ['-', '-', '>'])
    rwa [List.append_assoc] at hlast
  · exact isHeader_arrow source _
  · rw [statement?, id?_writtenId hsource hsource' rfl]
    simp only [harrow, hread]
    rfl

/-- The line of a node is read as the node. -/
theorem ofText_nodeLine {node : DiagramNode} (hne : node.id ≠ "")
    (hescape : ¬ quoteEscape <:+: node.id.toList) :
    Line.ofText (Mermaid.nodeLine node).toList = .node node.id := by
  have hread : id? (Mermaid.writtenId node.id).toList = some (node.id, []) := by
    rw [← List.append_nil (Mermaid.writtenId node.id).toList]
    exact id?_writtenId hne hescape rfl
  rw [nodeLine_toList]
  apply ofText_indented (ends_writtenId hne).1 (ends_writtenId hne).2 (isHeader_writtenId node.id)
  rw [statement?, hread]
  rfl

end Flowchart

end TableLineage
