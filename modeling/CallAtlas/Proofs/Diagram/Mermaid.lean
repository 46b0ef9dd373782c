import CallAtlas.Diagram.Mermaid
import CallAtlas.Proofs.Diagram.Reading
/-!
# Reading flowcharts

A flowchart is read as the nodes of its groups or its own nodes, its connections, and one style for
the positions of the connections on cycles if there are any.
-/

namespace CallAtlas.Diagram.Mermaid

/-- What stands between the quotation marks of a label. -/
def shown (text : String) : String :=
  String.ofList (text.toList.flatMap fun c => if c == '"' then "#quot;".toList else [c])

/-- The node of a word such as `n0["a"]`. -/
def node? (word : List Token) : Option Statement :=
  match word.splitOn (.char '[') with
  | [name, [.label text, .char ']']] => (numbered? "n" name).map (.node · text)
  | _ => none

/-- The style for positions that are divided by commas. -/
def style? (positions : List Token) : Option Statement :=
  ((positions.splitOn (.char ',')).mapM number?).map .style

/-- Whether two words such as `g0` and `["a"]` name a group. -/
def isGroup (name caption : List Token) : Bool :=
  (numbered? "g" name).isSome &&
    match caption with
    | [.char '[', .label _, .char ']'] => true
    | _ => false

def statements : List (List Token) → Option (List Statement)
  | [] => some []
  | [word] => if word = chars "end" then some [] else do return [← node? word]
  | [first, second] => if first = chars "graph" ∧ second = chars "TD" then some [] else none
  | [first, second, third] =>
    if first = chars "subgraph" then if isGroup second third then some [] else none
    else if first = chars "linkStyle" ∧ third = chars "stroke:red,stroke-width:3px;" then do
      return [← style? second]
    else if second = chars "-->" then do return [← connection? first third false]
    else if second = chars "-->|cycle|" then do return [← connection? first third true]
    else none
  | _ => none

def grammar : Grammar := ⟨none, statements, rfl⟩

theorem scan_inside {body : List Char} (h : '"' ∉ body) (read rest : List Char) :
    scan none (.inside read) (body ++ '"' :: rest) =
      (scan none .outside rest).map (.label (String.ofList (read.reverse ++ body)) :: ·) := by
  induction body generalizing read with
  | nil =>
    rw [List.nil_append, scan, if_pos rfl, List.append_nil]
  | cons c body ih =>
    rw [List.mem_cons, not_or] at h
    rw [List.cons_append, scan, if_neg (Ne.symm h.1), if_neg (by simp), ih h.2]
    simp

theorem quote_not_mem_shown (text : String) : '"' ∉ (shown text).toList := by
  rw [shown, String.toList_ofList]
  intro h
  obtain ⟨c, hc, hmem⟩ := List.mem_flatMap.1 h
  split at hmem
  · simp at hmem
  · rename_i hne
    rw [List.mem_singleton] at hmem
    subst hmem
    exact hne rfl

theorem word_quoted (text : String) : Word none (quoted text).toList [.label (shown text)] := by
  apply Word.label
  intro rest
  have hquoted : (quoted text).toList = '"' :: ((shown text).toList ++ ['"']) := by
    rw [quoted, String.toList_append, String.toList_append]
    rfl
  rw [hquoted, List.cons_append, scan, if_pos rfl, List.append_assoc, List.singleton_append,
    scan_inside (quote_not_mem_shown text)]
  simp

theorem word_bracketed (text : String) :
    Word none ("[" ++ quoted text ++ "]").toList [.char '[', .label (shown text), .char ']'] := by
  rw [String.toList_append, String.toList_append]
  have hopen : Word none "[".toList [.char '['] := Word.plain rfl
  have hclose : Word none "]".toList [.char ']'] := Word.plain rfl
  exact (hopen.append (word_quoted text)).append hclose

/-- The positions of a style as they are written. -/
def listed (positions : List Nat) : List Token := [.char ','].intercalate (positions.map digits)

theorem word_listed {positions : List Nat} (hne : positions ≠ []) :
    Word none (",".intercalate (positions.map toString)).toList (listed positions) := by
  induction positions with
  | nil => exact absurd rfl hne
  | cons p positions ih =>
    cases positions with
    | nil =>
      rw [List.map_singleton, String.intercalate_singleton, listed, List.map_singleton,
        List.intercalate_singleton]
      exact Word.digits p
    | cons q positions =>
      have hcomma : Word none ",".toList [.char ','] := Word.plain rfl
      rw [List.map_cons, List.map_cons, String.intercalate_cons_cons, String.toList_append,
        String.toList_append, listed, List.map_cons, List.map_cons, List.intercalate_cons_cons]
      exact ((Word.digits p).append hcomma).append (ih (List.cons_ne_nil _ _))

theorem style?_listed {positions : List Nat} (hne : positions ≠ []) :
    style? (listed positions) = some (.style positions) := by
  have hcomma : ∀ word ∈ positions.map digits, .char ',' ∉ word := by
    intro word hword hmem
    obtain ⟨p, hp, rfl⟩ := List.mem_map.1 hword
    cases isDigit_of_mem_digits hmem
  have hnumbers : (positions.map digits).mapM number? = some positions :=
    mapM_map_eq_some fun p _ => number?_digits p
  rw [style?, listed, List.splitOn_intercalate _ hcomma (mt List.map_eq_nil_iff.1 hne), hnumbers]
  rfl

theorem node?_numbered (i : Nat) (text : String) :
    node? (numbered "n" i ++ [.char '[', .label text, .char ']']) = some (.node i text) := by
  have hname : .char '[' ∉ numbered "n" i := not_mem_numbered (by decide) (by decide)
  have hrest : Token.char '[' ∉ [.label text, .char ']'] := by simp
  rw [node?, splitOn_pair hname hrest]
  simp

theorem reads_node (i : Nat) (text : String) {indent : String}
    (hindent : indent.toList.all (· == ' ') = true) :
    Reads grammar [indent ++ vertex i ++ "[" ++ quoted text ++ "]"] [.node i (shown text)] := by
  have hline : Line none (indent ++ vertex i ++ "[" ++ quoted text ++ "]").toList
      [numbered "n" i ++ [.char '[', .label (shown text), .char ']']] := by
    have hshape : (indent ++ vertex i ++ "[" ++ quoted text ++ "]").toList =
        indent.toList ++ ((vertex i).toList ++ ("[" ++ quoted text ++ "]").toList) := by simp
    rw [hshape]
    exact .indent hindent (.last ((word_vertex i).append (word_bracketed text)))
  have hread : statements [numbered "n" i ++ [.char '[', .label (shown text), .char ']']] =
      some [.node i (shown text)] := by
    have hend : numbered "n" i ++ [.char '[', .label (shown text), .char ']'] ≠ chars "end" := by
      simp [numbered, chars]
    rw [statements, if_neg hend, node?_numbered]
    rfl
  exact Reads.line hline hread

theorem line_connection (c : Connection) : Line none (connection c).toList
    [numbered "n" c.source, chars (if c.inCycle then "-->|cycle|" else "-->"),
      numbered "n" c.target] := by
  have hshape : (connection c).toList = ' ' :: ' ' :: ((vertex c.source).toList ++
      ' ' :: ((if c.inCycle then "-->|cycle|" else "-->").toList ++
        ' ' :: (vertex c.target).toList)) := by
    cases h : c.inCycle <;> simp [connection, h]
  rw [hshape]
  refine .blank (.blank (.word (word_vertex c.source) (.word ?_ (.last (word_vertex c.target)))))
  cases c.inCycle
  · exact Word.plain rfl
  · exact Word.plain rfl

theorem statements_connection (c : Connection) : statements
    [numbered "n" c.source, chars (if c.inCycle then "-->|cycle|" else "-->"),
      numbered "n" c.target] = some [.connection c] := by
  obtain ⟨source, target, inCycle⟩ := c
  have hgroup : numbered "n" source ≠ chars "subgraph" := by simp [numbered, chars]
  have hstyle : numbered "n" source ≠ chars "linkStyle" := by simp [numbered, chars]
  rw [statements, if_neg hgroup, if_neg fun h => hstyle h.1]
  cases inCycle with
  | false =>
    rw [if_neg Bool.false_ne_true, if_pos rfl, connection?_numbered]
    rfl
  | true =>
    have hmarked : chars "-->|cycle|" ≠ chars "-->" := by decide
    rw [if_pos rfl, if_neg hmarked, if_pos rfl, connection?_numbered]
    rfl

theorem reads_connections (cs : List Connection) :
    Reads grammar (cs.map connection) (cs.map .connection) :=
  Reads.map fun c _ => Reads.line (line_connection c) (statements_connection c)

/-- The style that a flowchart gives its connections. -/
def styleStatements (cs : List Connection) : List Statement :=
  match styledPositions cs with
  | [] => []
  | positions => [.style positions]

theorem mem_styledPositions_iff {cs : List Connection} {i : Nat} :
    i ∈ styledPositions cs ↔ ∃ c, cs[i]? = some c ∧ c.inCycle = true := by
  rw [styledPositions, List.mem_map]
  constructor
  · rintro ⟨⟨c, j⟩, hmem, rfl⟩
    obtain ⟨hmem, hcycle⟩ := List.mem_filter.1 hmem
    exact ⟨c, List.mk_mem_zipIdx_iff_getElem?.1 hmem, hcycle⟩
  · rintro ⟨c, hget, hcycle⟩
    have hmem := List.mk_mem_zipIdx_iff_getElem?.2 hget
    exact ⟨(c, i), List.mem_filter.2 ⟨hmem, hcycle⟩, rfl⟩

theorem pairwise_styledPositions (cs : List Connection) :
    (styledPositions cs).Pairwise (· < ·) := by
  have hsublist : (styledPositions cs).Sublist (cs.zipIdx.map (·.2)) :=
    List.filter_sublist.map _
  rw [List.zipIdx_map_snd] at hsublist
  exact (List.pairwise_lt_range' 1).sublist hsublist

theorem styledPositions_eq_nil_iff {cs : List Connection} :
    styledPositions cs = [] ↔ ∀ c ∈ cs, c.inCycle = false := by
  rw [List.eq_nil_iff_forall_not_mem]
  constructor
  · intro h c hc
    obtain ⟨i, hget⟩ := List.getElem?_of_mem hc
    apply Bool.eq_false_iff.2
    intro hcycle
    exact h i (mem_styledPositions_iff.2 ⟨c, hget, hcycle⟩)
  · intro h i hi
    obtain ⟨c, hget, hcycle⟩ := mem_styledPositions_iff.1 hi
    rw [h c (List.mem_of_getElem? hget)] at hcycle
    cases hcycle

theorem line_style {positions : List Nat} (hne : positions ≠ []) : Line none
    ("  linkStyle " ++ ",".intercalate (positions.map toString) ++
      " stroke:red,stroke-width:3px;").toList
    [chars "linkStyle", listed positions, chars "stroke:red,stroke-width:3px;"] := by
  have hshape : ("  linkStyle " ++ ",".intercalate (positions.map toString) ++
      " stroke:red,stroke-width:3px;").toList =
      ' ' :: ' ' :: ("linkStyle".toList ++ ' ' ::
        ((",".intercalate (positions.map toString)).toList ++ ' ' ::
          "stroke:red,stroke-width:3px;".toList)) := by
    rw [String.toList_append, String.toList_append, List.append_assoc]
    rfl
  rw [hshape]
  refine .blank (.blank (.word ?_ (.word (word_listed hne) (.last ?_))))
  · exact Word.plain rfl
  · exact Word.plain rfl

theorem statements_style {positions : List Nat} (hne : positions ≠ []) : statements
    [chars "linkStyle", listed positions, chars "stroke:red,stroke-width:3px;"] =
      some [.style positions] := by
  have hgroup : chars "linkStyle" ≠ chars "subgraph" := by decide
  rw [statements, if_neg hgroup, if_pos ⟨rfl, rfl⟩, style?_listed hne]
  rfl

theorem reads_styleLine (cs : List Connection) : Reads grammar (styleLine cs) (styleStatements cs) := by
  cases hpositions : styledPositions cs with
  | nil =>
    simp only [styleLine, styleStatements, hpositions]
    exact .nil
  | cons first rest =>
    simp only [styleLine, styleStatements, hpositions]
    have hne : first :: rest ≠ [] := List.cons_ne_nil _ _
    exact Reads.line (line_style hne) (statements_style hne)

theorem reads_opening (position : Nat) (module : String) : Reads grammar
    ["  subgraph g" ++ toString position ++ " [" ++ quoted module ++ "]"] [] := by
  have hline : Line none
      ("  subgraph g" ++ toString position ++ " [" ++ quoted module ++ "]").toList
      [chars "subgraph", numbered "g" position,
        [.char '[', .label (shown module), .char ']']] := by
    have hshape : ("  subgraph g" ++ toString position ++ " [" ++ quoted module ++ "]").toList =
        ' ' :: ' ' :: ("subgraph".toList ++ ' ' :: (("g" ++ toString position).toList ++ ' ' ::
          ("[" ++ quoted module ++ "]").toList)) := by simp
    rw [hshape]
    refine .blank (.blank (.word ?_ (.word ?_ (.last (word_bracketed module)))))
    · exact Word.plain rfl
    · exact Word.numbered rfl position
  have hread : statements [chars "subgraph", numbered "g" position,
      [.char '[', .label (shown module), .char ']']] = some [] := by
    have hgroup : isGroup (numbered "g" position)
        [.char '[', .label (shown module), .char ']'] := by simp [isGroup]
    rw [statements, if_pos rfl, if_pos hgroup]
  exact Reads.line hline hread

theorem reads_cluster (l : Layout) (position : Nat) (module : String) (members : List Nat) :
    Reads grammar (cluster l position module members) (l.declare shown members) := by
  have hmembers : Reads grammar
      (members.map fun i => "    " ++ vertex i ++ "[" ++ quoted (l.label i) ++ "]")
      (l.declare shown members) :=
    Reads.map fun i _ => reads_node i (l.label i) rfl
  have hclose : Reads grammar ["  end"] [] := Reads.plain rfl rfl
  have hread := ((reads_opening position module).append hmembers).append hclose
  rwa [List.nil_append, List.append_nil] at hread

theorem reads_heading : Reads grammar ["graph TD"] [] := Reads.plain rfl rfl

/-- A clustered flowchart is read as its nodes, its connections and their style. -/
theorem read_callGraph (l : Layout) : grammar.read (callGraph l).toList =
    some ((l.clusters.entries.flatMap fun e => l.declare shown e.2) ++
      l.connections.map .connection ++ styleStatements l.connections) := by
  have hclusters : Reads grammar
      (l.clusters.entries.zipIdx.flatMap fun e => cluster l e.2 e.1.1 e.1.2)
      (l.clusters.entries.flatMap fun e => l.declare shown e.2) := Reads.clusters (reads_cluster l)
  have hread := ((reads_heading.append hclusters).append (reads_connections l.connections)).append
    (reads_styleLine l.connections)
  rw [List.nil_append] at hread
  exact hread.joinLines

theorem read_importGraph (l : Layout) : grammar.read (importGraph l).toList =
    some ((l.labels.zipIdx.map fun e => .node e.2 (shown e.1)) ++
      l.connections.map .connection) := by
  have hnodes : Reads grammar
      (l.labels.zipIdx.map fun e => "  " ++ vertex e.2 ++ "[" ++ quoted e.1 ++ "]")
      (l.labels.zipIdx.map fun e => .node e.2 (shown e.1)) :=
    Reads.map fun e _ => reads_node e.2 e.1 rfl
  have hread := (reads_heading.append hnodes).append (reads_connections l.connections)
  rw [List.nil_append] at hread
  exact hread.joinLines

end CallAtlas.Diagram.Mermaid
