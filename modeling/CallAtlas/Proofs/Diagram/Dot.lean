import CallAtlas.Diagram.Dot
import CallAtlas.Proofs.Diagram.Reading
/-!
# Reading digraphs of Graphviz

A digraph is read as the nodes of its clusters or its own nodes, and its connections, of which those
on cycles carry the attributes of a cycle. Labels are read as they were before they were quoted.
-/

namespace CallAtlas.Diagram.Dot

/-- The node of a name and its attributes, such as `n0` and `[label="a"];`. -/
def node? (name attributes : List Token) : Option Statement :=
  match attributes.splitOn (.char '=') with
  | [key, [.label text, .char ']', .char ';']] =>
    if key = chars "[label" then (numbered? "n" name).map (.node · text) else none
  | _ => none

/-- Whether a word such as `label="a";` is the caption of a cluster. -/
def isCaption (word : List Token) : Bool :=
  match word.splitOn (.char '=') with
  | [key, [.label _, .char ';']] => key = chars "label"
  | _ => false

/-- Whether two words name a digraph or a cluster. -/
def isHeading (kind name : List Token) : Bool :=
  kind = chars "digraph" ∧ (name = chars "call_graph" ∨ name = chars "import_graph") ∨
    kind = chars "subgraph" ∧ (numbered? "cluster_" name).isSome

/-- The word before a semicolon. -/
def beforeSemicolon? (word : List Token) : Option (List Token) :=
  match word.splitOn (.char ';') with
  | [name, []] => some name
  | _ => none

/-- The attributes of a connection on a cycle. -/
def cycleWords : List (List Token) :=
  [chars "[color=" ++ [.label "red", .char ','], chars "penwidth=3,",
    chars "label=" ++ [.label "cycle", .char ']', .char ';']]

def statements : List (List Token) → Option (List Statement)
  | [] => some []
  | [word] =>
    if word = chars "rankdir=TB;" ∨ word = chars "\x7d" ∨ isCaption word then some [] else none
  | [first, second] =>
    if first = chars "node" ∧ second = chars "[shape=box];" then some []
    else do return [← node? first second]
  | [first, second, third] =>
    if second = chars "->" then do return [← connection? first (← beforeSemicolon? third) false]
    else if third = chars "\x7b" ∧ isHeading first second then some []
    else none
  | first :: second :: third :: attributes =>
    if second = chars "->" ∧ attributes = cycleWords then do
      return [← connection? first third true]
    else none

def grammar : Grammar := ⟨some '\\', statements, rfl⟩

/-- A text in which quotation marks and backslashes are escaped is read as it was before. -/
theorem scan_escaped (text read rest : List Char) :
    scan (some '\\') (.inside read)
        ((text.flatMap fun c => if c == '\\' || c == '"' then ['\\', c] else [c]) ++ '"' :: rest) =
      (scan (some '\\') .outside rest).map
        (.label (String.ofList (read.reverse ++ text)) :: ·) := by
  induction text generalizing read with
  | nil =>
    rw [List.flatMap_nil, List.nil_append, scan, if_pos rfl, List.append_nil]
  | cons c text ih =>
    have hread : read.reverse ++ c :: text = (c :: read).reverse ++ text := by simp
    rw [List.flatMap_cons, List.append_assoc, hread, ← ih]
    split
    · rw [List.cons_append, List.singleton_append, scan, if_neg (by decide), if_pos rfl, scan]
    · rename_i hc
      simp only [Bool.or_eq_true, beq_iff_eq, not_or] at hc
      rw [List.singleton_append, scan, if_neg hc.2, if_neg]
      intro heq
      cases heq
      exact hc.1 rfl

theorem word_quoted (text : String) : Word (some '\\') (quoted text).toList [.label text] := by
  apply Word.label
  intro rest
  have hquoted : (quoted text).toList = '"' :: ((text.toList.flatMap fun c =>
      if c == '\\' || c == '"' then ['\\', c] else [c]) ++ ['"']) := by
    simp [quoted]
  rw [hquoted, List.cons_append, scan, if_pos rfl, List.append_assoc, List.singleton_append,
    scan_escaped, List.reverse_nil, List.nil_append, String.ofList_toList]
  rfl

theorem word_labelled (text : String) : Word (some '\\') ("[label=" ++ quoted text ++ "];").toList
    (chars "[label=" ++ [.label text] ++ chars "];") := by
  rw [String.toList_append, String.toList_append]
  have hkey : Word (some '\\') "[label=".toList (chars "[label=") := Word.plain rfl
  have hclose : Word (some '\\') "];".toList (chars "];") := Word.plain rfl
  exact (hkey.append (word_quoted text)).append hclose

theorem node?_labelled (i : Nat) (text : String) :
    node? (numbered "n" i) (chars "[label=" ++ [.label text] ++ chars "];") =
      some (.node i text) := by
  have hkey : .char '=' ∉ chars "[label" := by decide
  have hrest : .char '=' ∉ [Token.label text, .char ']', .char ';'] := by simp
  have hshape : chars "[label=" ++ [.label text] ++ chars "];" =
      chars "[label" ++ .char '=' :: [.label text, .char ']', .char ';'] := rfl
  rw [hshape, node?, splitOn_pair hkey hrest]
  simp

theorem isCaption_quoted (text : String) :
    isCaption (chars "label=" ++ [.label text] ++ [.char ';']) := by
  have hkey : .char '=' ∉ chars "label" := by decide
  have hrest : .char '=' ∉ [Token.label text, .char ';'] := by simp
  have hshape : chars "label=" ++ [.label text] ++ [.char ';'] =
      chars "label" ++ .char '=' :: [.label text, .char ';'] := rfl
  rw [hshape, isCaption, splitOn_pair hkey hrest]
  simp

theorem beforeSemicolon?_numbered (i : Nat) :
    beforeSemicolon? (numbered "n" i ++ [.char ';']) = some (numbered "n" i) := by
  have hname : .char ';' ∉ numbered "n" i := not_mem_numbered (by decide) (by decide)
  rw [beforeSemicolon?, splitOn_pair hname List.not_mem_nil]

theorem reads_node (i : Nat) (text : String) {indent : String}
    (hindent : indent.toList.all (· == ' ') = true) :
    Reads grammar [node indent i text] [.node i text] := by
  have hline : Line (some '\\') (node indent i text).toList
      [numbered "n" i, chars "[label=" ++ [.label text] ++ chars "];"] := by
    have hshape : (node indent i text).toList = indent.toList ++
        ((vertex i).toList ++ ' ' :: ("[label=" ++ quoted text ++ "];").toList) := by simp [node]
    rw [hshape]
    exact .indent hindent (.word (word_vertex i) (.last (word_labelled text)))
  have hread : statements [numbered "n" i, chars "[label=" ++ [.label text] ++ chars "];"] =
      some [.node i text] := by
    have hdefault : chars "[label=" ++ [.label text] ++ chars "];" ≠ chars "[shape=box];" := by
      simp [chars]
    rw [statements, if_neg fun h => hdefault h.2, node?_labelled]
    rfl
  exact Reads.line hline hread

theorem line_connection (source target : Nat) :
    Line (some '\\') (connection ⟨source, target, false⟩).toList
      [numbered "n" source, chars "->", numbered "n" target ++ [.char ';']] := by
  have hshape : (connection ⟨source, target, false⟩).toList =
      ' ' :: ' ' :: ((vertex source).toList ++ ' ' ::
        ("->".toList ++ ' ' :: ((vertex target).toList ++ ";".toList))) := by
    simp [connection]
  have hclose : Word (some '\\') ";".toList [.char ';'] := Word.plain rfl
  rw [hshape]
  refine .blank (.blank (.word (word_vertex source) (.word ?_ (.last ?_))))
  · exact Word.plain rfl
  · exact (word_vertex target).append hclose

theorem line_connection_inCycle (source target : Nat) :
    Line (some '\\') (connection ⟨source, target, true⟩).toList
      (numbered "n" source :: chars "->" :: numbered "n" target :: cycleWords) := by
  have hshape : (connection ⟨source, target, true⟩).toList =
      ' ' :: ' ' :: ((vertex source).toList ++ ' ' :: ("->".toList ++ ' ' ::
        ((vertex target).toList ++ ' ' ::
          (("[color=".toList ++ (quoted "red").toList ++ ",".toList) ++ ' ' ::
            ("penwidth=3,".toList ++ ' ' ::
              ("label=".toList ++ (quoted "cycle").toList ++ "];".toList)))))) := by
    simp [connection, cycleAttributes, quoted]
  rw [hshape]
  refine .blank (.blank (.word (word_vertex source) (.word ?_ (.word (word_vertex target)
    (.word ?color (.word ?width (.last ?caption)))))))
  · exact Word.plain rfl
  case color =>
    have hkey : Word (some '\\') "[color=".toList (chars "[color=") := Word.plain rfl
    have hcomma : Word (some '\\') ",".toList [.char ','] := Word.plain rfl
    exact (hkey.append (word_quoted "red")).append hcomma
  case width => exact Word.plain rfl
  case caption =>
    have hkey : Word (some '\\') "label=".toList (chars "label=") := Word.plain rfl
    have hclose : Word (some '\\') "];".toList (chars "];") := Word.plain rfl
    exact (hkey.append (word_quoted "cycle")).append hclose

theorem reads_connection (c : Connection) : Reads grammar [connection c] [.connection c] := by
  obtain ⟨source, target, inCycle⟩ := c
  cases inCycle with
  | false =>
    have hread : statements
        [numbered "n" source, chars "->", numbered "n" target ++ [.char ';']] =
        some [.connection ⟨source, target, false⟩] := by
      rw [statements, if_pos rfl, beforeSemicolon?_numbered]
      simp
    exact Reads.line (line_connection source target) hread
  | true =>
    have hread : statements
        (numbered "n" source :: chars "->" :: numbered "n" target :: cycleWords) =
        some [.connection ⟨source, target, true⟩] := by
      rw [statements, if_pos ⟨rfl, rfl⟩, connection?_numbered]
      · rfl
      · exact List.cons_ne_nil _ _
    exact Reads.line (line_connection_inCycle source target) hread

theorem reads_connections (cs : List Connection) :
    Reads grammar (cs.map connection) (cs.map .connection) :=
  Reads.map fun c _ => reads_connection c

theorem reads_opening (position : Nat) :
    Reads grammar ["  subgraph cluster_" ++ toString position ++ " \x7b"] [] := by
  have hline : Line (some '\\') ("  subgraph cluster_" ++ toString position ++ " \x7b").toList
      [chars "subgraph", numbered "cluster_" position, chars "\x7b"] := by
    have hshape : ("  subgraph cluster_" ++ toString position ++ " \x7b").toList =
        ' ' :: ' ' :: ("subgraph".toList ++ ' ' ::
          (("cluster_" ++ toString position).toList ++ ' ' :: "\x7b".toList)) := by simp
    rw [hshape]
    refine .blank (.blank (.word ?_ (.word ?_ (.last ?_))))
    · exact Word.plain rfl
    · exact Word.numbered rfl position
    · exact Word.plain rfl
  have hread : statements [chars "subgraph", numbered "cluster_" position, chars "\x7b"] =
      some [] := by
    have hname : numbered "cluster_" position ≠ chars "->" := by simp [numbered, chars]
    have hheading : isHeading (chars "subgraph") (numbered "cluster_" position) := by
      simp [isHeading]
    rw [statements, if_neg hname, if_pos ⟨rfl, hheading⟩]
  exact Reads.line hline hread

theorem reads_caption (module : String) :
    Reads grammar ["    label=" ++ quoted module ++ ";"] [] := by
  have hline : Line (some '\\') ("    label=" ++ quoted module ++ ";").toList
      [chars "label=" ++ [.label module] ++ [.char ';']] := by
    have hshape : ("    label=" ++ quoted module ++ ";").toList = ' ' :: ' ' :: ' ' :: ' ' ::
        ("label=".toList ++ (quoted module).toList ++ ";".toList) := by simp
    have hkey : Word (some '\\') "label=".toList (chars "label=") := Word.plain rfl
    have hclose : Word (some '\\') ";".toList [.char ';'] := Word.plain rfl
    have hword := (hkey.append (word_quoted module)).append hclose
    rw [hshape]
    exact .blank (.blank (.blank (.blank (.last hword))))
  have hread : statements [chars "label=" ++ [.label module] ++ [.char ';']] = some [] := by
    rw [statements, if_pos (.inr (.inr (isCaption_quoted module)))]
  exact Reads.line hline hread

theorem reads_cluster (l : Layout) (position : Nat) (module : String) (members : List Nat) :
    Reads grammar (cluster l position module members) (l.declare id members) := by
  have hmembers : Reads grammar (members.map fun i => node "    " i (l.label i))
      (l.declare id members) :=
    Reads.map fun i _ => reads_node i (l.label i) rfl
  have hclose : Reads grammar ["  \x7d"] [] := Reads.plain rfl rfl
  have hread :=
    (((reads_opening position).append (reads_caption module)).append hmembers).append hclose
  rwa [List.nil_append, List.append_nil, List.nil_append] at hread

theorem reads_end : Reads grammar ["\x7d"] [] := Reads.plain rfl rfl

/-- A clustered digraph is read as its nodes and its connections. -/
theorem read_callGraph (l : Layout) : grammar.read (callGraph l).toList =
    some ((l.clusters.entries.flatMap fun e => l.declare id e.2) ++
      l.connections.map .connection) := by
  have hname : Reads grammar ["digraph call_graph \x7b"] [] :=
    Reads.plain rfl rfl
  have hdirection : Reads grammar ["  rankdir=TB;"] [] := Reads.plain rfl rfl
  have hshape : Reads grammar ["  node [shape=box];"] [] := Reads.plain rfl rfl
  have hheading := (hname.append hdirection).append hshape
  have hclusters : Reads grammar
      (l.clusters.entries.zipIdx.flatMap fun e => cluster l e.2 e.1.1 e.1.2)
      (l.clusters.entries.flatMap fun e => l.declare id e.2) := Reads.clusters (reads_cluster l)
  have hread :=
    ((hheading.append hclusters).append (reads_connections l.connections)).append reads_end
  rw [List.append_nil, List.append_nil, List.nil_append] at hread
  exact hread.joinLines

/-- A digraph without clusters is read as its nodes and its connections. -/
theorem read_importGraph (l : Layout) : grammar.read (importGraph l).toList =
    some ((l.labels.zipIdx.map fun e => .node e.2 e.1) ++ l.connections.map .connection) := by
  have hname : Reads grammar ["digraph import_graph \x7b"] [] :=
    Reads.plain rfl rfl
  have hnodes : Reads grammar (l.labels.zipIdx.map fun e => node "  " e.2 e.1)
      (l.labels.zipIdx.map fun e => .node e.2 e.1) :=
    Reads.map fun e _ => reads_node e.2 e.1 rfl
  have hread := ((hname.append hnodes).append (reads_connections l.connections)).append reads_end
  rw [List.append_nil, List.nil_append] at hread
  exact hread.joinLines

end CallAtlas.Diagram.Dot
