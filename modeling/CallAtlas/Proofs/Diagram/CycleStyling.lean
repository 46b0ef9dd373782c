import CallAtlas.Diagram.Drawing
import CallAtlas.Proofs.Diagram.Dot
import CallAtlas.Proofs.Diagram.Mermaid
import CallAtlas.Proofs.Diagram.Numbering
/-!
# Styled edges of diagrams

A drawing is read back as the nodes and edges of its graphs. An edge of the call graph is styled if
and only if it is an edge of one of the given cycles, and no edge of the import graph is.
-/

namespace CallAtlas.Diagram

/-- The connections that are declared, in order. -/
def connections (ss : List Statement) : List Connection :=
  ss.filterMap fun
    | .connection c => some c
    | _ => none

/-- The positions that each style is declared for. -/
def styles (ss : List Statement) : List (List Nat) :=
  ss.filterMap fun
    | .style positions => some positions
    | _ => none

theorem connections_append (ss ts : List Statement) :
    connections (ss ++ ts) = connections ss ++ connections ts :=
  List.filterMap_append

theorem styles_append (ss ts : List Statement) : styles (ss ++ ts) = styles ss ++ styles ts :=
  List.filterMap_append

def Format.grammar : Format → Grammar
  | .mermaid => Mermaid.grammar
  | .dot => Dot.grammar

/-- How the label of a node is shown between its quotation marks. -/
def Format.shown : Format → String → String
  | .mermaid => Mermaid.shown
  | .dot => id

/-- The style statements behind the connections of a call graph. -/
def Format.styleStatements : Format → List Connection → List Statement
  | .mermaid => Mermaid.styleStatements
  | .dot => fun _ => []

/-- The connections on cycles are styled by their positions: nothing is styled if there are none,
and otherwise a single style lists their positions in ascending order. -/
structure StyledByPosition (ss : List Statement) : Prop where
  length_le : (styles ss).length ≤ 1
  eq_nil_iff : styles ss = [] ↔ ∀ c ∈ connections ss, c.inCycle = false
  ascending : ∀ positions ∈ styles ss, positions.Pairwise (· < ·)
  mem_iff : ∀ positions ∈ styles ss, ∀ i,
    i ∈ positions ↔ ∃ c, (connections ss)[i]? = some c ∧ c.inCycle = true

/-- What statements say of a graph in which some edges are styled. -/
structure Shows (format : Format) (g : Digraph String) (Styled : String → String → Prop)
    (ss : List Statement) : Prop where
  /-- Nodes are declared with their positions as numbers. -/
  node_mem_iff : ∀ n label,
    .node n label ∈ ss ↔ ∃ a, g.nodes.toList[n]? = some a ∧ label = format.shown a
  /-- Edges are ordered by source and then by destination. -/
  ascending : g.edges.Pairwise fun e f =>
    compare e.1 f.1 = .lt ∨ e.1 = f.1 ∧ compare e.2 f.2 = .lt
  /-- There is one connection for each edge, in the order of the edges. -/
  connected : List.Forall₂ (fun e c => g.nodes.toList[c.source]? = some e.1 ∧
    g.nodes.toList[c.target]? = some e.2 ∧ (c.inCycle = true ↔ Styled e.1 e.2))
    g.edges (connections ss)
  styled : match format with
    | .mermaid => StyledByPosition ss
    | .dot => styles ss = []

theorem Format.read_callGraph (format : Format) (l : Layout) :
    format.grammar.read (format.callGraph l).toList =
      some ((l.clusters.entries.flatMap fun e => l.declare format.shown e.2) ++
        l.connections.map .connection ++ format.styleStatements l.connections) := by
  cases format with
  | mermaid => exact Mermaid.read_callGraph l
  | dot =>
    rw [Format.styleStatements, List.append_nil]
    exact Dot.read_callGraph l

theorem Format.read_importGraph (format : Format) (l : Layout) :
    format.grammar.read (format.importGraph l).toList =
      some ((l.labels.zipIdx.map fun e => .node e.2 (format.shown e.1)) ++
        l.connections.map .connection) := by
  cases format with
  | mermaid => exact Mermaid.read_importGraph l
  | dot => exact Dot.read_importGraph l

theorem Format.exists_of_mem_styleStatements {format : Format} {cs : List Connection} {s : Statement}
    (h : s ∈ format.styleStatements cs) : ∃ positions, s = .style positions := by
  cases format with
  | dot => cases h
  | mermaid =>
    rw [Format.styleStatements, Mermaid.styleStatements] at h
    split at h
    · cases h
    · exact ⟨_, List.mem_singleton.1 h⟩

theorem Format.styleStatements_eq_nil (format : Format) {cs : List Connection}
    (h : ∀ c ∈ cs, c.inCycle = false) : format.styleStatements cs = [] := by
  cases format with
  | dot => rfl
  | mermaid => rw [Format.styleStatements, Mermaid.styleStatements, Mermaid.styledPositions_eq_nil_iff.2 h]

section Parts

variable {declared : List Statement} (hdeclared : ∀ s ∈ declared, ∃ n label, s = .node n label)
  (format : Format) (cs : List Connection)
include hdeclared

theorem connections_parts :
    connections (declared ++ cs.map .connection ++ format.styleStatements cs) = cs := by
  have hnodes : connections declared = [] := by
    apply List.filterMap_eq_nil_iff.2
    intro s hs
    obtain ⟨n, label, rfl⟩ := hdeclared s hs
    rfl
  have hconnections : connections (cs.map .connection) = cs := by
    rw [connections, List.filterMap_map]
    exact List.filterMap_some
  have hstyles : connections (format.styleStatements cs) = [] := by
    apply List.filterMap_eq_nil_iff.2
    intro s hs
    obtain ⟨positions, rfl⟩ := Format.exists_of_mem_styleStatements hs
    rfl
  rw [connections_append, connections_append, hnodes, hconnections, hstyles, List.nil_append,
    List.append_nil]

theorem styles_parts : styles (declared ++ cs.map .connection ++ format.styleStatements cs) =
    styles (format.styleStatements cs) := by
  have hnodes : styles declared = [] := by
    apply List.filterMap_eq_nil_iff.2
    intro s hs
    obtain ⟨n, label, rfl⟩ := hdeclared s hs
    rfl
  have hconnections : styles (cs.map .connection) = [] := by
    apply List.filterMap_eq_nil_iff.2
    intro s hs
    obtain ⟨c, hc, rfl⟩ := List.mem_map.1 hs
    rfl
  rw [styles_append, styles_append, hnodes, hconnections, List.nil_append, List.nil_append]

end Parts

theorem node_mem_parts {declared : List Statement} {format : Format} {cs : List Connection}
    {n : Nat} {label : String} : .node n label ∈ declared ++ cs.map .connection ++ format.styleStatements cs ↔
      .node n label ∈ declared := by
  rw [List.mem_append, List.mem_append]
  constructor
  · rintro ((h | h) | h)
    · exact h
    · obtain ⟨c, -, heq⟩ := List.mem_map.1 h
      cases heq
    · obtain ⟨positions, heq⟩ := Format.exists_of_mem_styleStatements h
      cases heq
  · intro h
    exact .inl (.inl h)

/-- A flowchart styles the connections on cycles through their positions. -/
theorem styledByPosition_parts {ss : List Statement} {cs : List Connection}
    (hconnections : connections ss = cs) (hstyles : styles ss = styles (Mermaid.styleStatements cs)) :
    StyledByPosition ss := by
  cases hpositions : Mermaid.styledPositions cs with
  | nil =>
    have hnone : styles ss = [] := by
      rw [hstyles, Mermaid.styleStatements, hpositions]
      rfl
    refine ⟨?_, ?_, ?_, ?_⟩
    · rw [hnone]
      exact Nat.zero_le 1
    · rw [hconnections, hnone]
      exact iff_of_true rfl (Mermaid.styledPositions_eq_nil_iff.1 hpositions)
    · rw [hnone]
      exact fun positions h => absurd h List.not_mem_nil
    · rw [hnone]
      exact fun positions h => absurd h List.not_mem_nil
  | cons first rest =>
    have hone : styles ss = [Mermaid.styledPositions cs] := by
      rw [hstyles, Mermaid.styleStatements, hpositions]
      rfl
    refine ⟨?_, ?_, ?_, ?_⟩
    · rw [hone]
      exact Nat.le_refl 1
    · rw [hconnections, hone, ← Mermaid.styledPositions_eq_nil_iff, hpositions]
      exact iff_of_false (List.cons_ne_nil _ _) (List.cons_ne_nil _ _)
    · intro positions h
      rw [hone, List.mem_singleton] at h
      rw [h]
      exact Mermaid.pairwise_styledPositions cs
    · intro positions h i
      rw [hone, List.mem_singleton] at h
      rw [h, hconnections]
      exact Mermaid.mem_styledPositions_iff

theorem shows_of_parts {format : Format} {g : Digraph String} {Styled : String → String → Prop}
    {declared : List Statement} {cs : List Connection}
    (hdeclared : ∀ s ∈ declared, ∃ n label, s = .node n label)
    (hnodes : ∀ n label, .node n label ∈ declared ↔
      ∃ a, g.nodes.toList[n]? = some a ∧ label = format.shown a)
    (hedges : List.Forall₂ (fun e c => g.nodes.toList[c.source]? = some e.1 ∧
      g.nodes.toList[c.target]? = some e.2 ∧ (c.inCycle = true ↔ Styled e.1 e.2)) g.edges cs) :
    Shows format g Styled (declared ++ cs.map .connection ++ format.styleStatements cs) where
  node_mem_iff := fun n label => node_mem_parts.trans (hnodes n label)
  ascending := g.pairwise_edges
  connected := by
    rw [connections_parts hdeclared]
    exact hedges
  styled := by
    cases format with
    | mermaid =>
      exact styledByPosition_parts (connections_parts hdeclared .mermaid cs)
        (styles_parts hdeclared .mermaid cs)
    | dot => exact styles_parts hdeclared .dot cs

theorem shows_callGraph (format : Format) (g : Digraph String) (cs : List (List String)) :
    ∃ ss, format.grammar.read (format.callGraph (.clustered g (cycleEdges cs))).toList = some ss ∧
      Shows format g (fun a b => ∃ c ∈ cs, [a, b] <:+: c) ss := by
  refine ⟨_, format.read_callGraph (.clustered g (cycleEdges cs)), shows_of_parts ?_ ?_ ?_⟩
  · intro s hs
    obtain ⟨e, -, hs⟩ := List.mem_flatMap.1 hs
    obtain ⟨n, -, rfl⟩ := List.mem_map.1 hs
    exact ⟨_, _, rfl⟩
  · exact fun n label => Layout.node_mem_clustered_iff
  · apply (Layout.forall₂_connect g (cycleEdges cs)).imp
    rintro ⟨a, b⟩ c ⟨hsource, htarget, hcycle⟩
    exact ⟨hsource, htarget, hcycle.trans mem_cycleEdges_iff⟩

theorem shows_importGraph (format : Format) (g : Digraph String) :
    ∃ ss, format.grammar.read (format.importGraph (.flat g)).toList = some ss ∧
      Shows format g (fun _ _ => False) ss := by
  have hnone : ∀ c ∈ (Layout.flat g).connections, c.inCycle = false := by
    intro c hc
    obtain ⟨e, -, rfl⟩ := List.mem_map.1 hc
    rfl
  have hread := format.read_importGraph (.flat g)
  -- a flat layout has no connection on a cycle, so that its text ends like one with no style
  rw [← List.append_nil (_ ++ _), ← format.styleStatements_eq_nil hnone] at hread
  refine ⟨_, hread, shows_of_parts ?_ ?_ ?_⟩
  · intro s hs
    obtain ⟨e, -, rfl⟩ := List.mem_map.1 hs
    exact ⟨_, _, rfl⟩
  · exact fun n label => Layout.node_mem_flat_iff
  · apply (Layout.forall₂_connect g []).imp
    rintro ⟨a, b⟩ c ⟨hsource, htarget, hcycle⟩
    exact ⟨hsource, htarget, hcycle.trans (iff_of_false List.not_mem_nil id)⟩

/-- A drawing shows the call graph with the edges of the cycles styled, and the import graph without
styled edges. -/
theorem draw_styles_cycle_edges (format : Format) (calls : Digraph String)
    (imports : Option (Digraph String)) (cs : List (List String)) :
    (∃ ss, format.grammar.read (draw format calls imports cs).callGraph.toList = some ss ∧
      Shows format calls (fun a b => ∃ c ∈ cs, [a, b] <:+: c) ss) ∧
    ∀ text, (draw format calls imports cs).importGraph = some text →
      ∃ g ss, imports = some g ∧ format.grammar.read text.toList = some ss ∧
        Shows format g (fun _ _ => False) ss := by
  refine ⟨shows_callGraph format calls cs, ?_⟩
  intro text htext
  cases imports with
  | none => cases htext
  | some g =>
    simp only [draw] at htext
    split at htext
    · cases htext
    · cases htext
      obtain ⟨ss, hread, hshows⟩ := shows_importGraph format g
      exact ⟨g, ss, rfl, hread, hshows⟩

/-- Calls around a cycle and beside it, by functions of which one is named like a connection. -/
def knot : Digraph String :=
  .ofEdges [("m.f", "m.\"g\"\n  n0 --> n1"), ("m.\"g\"\n  n0 --> n1", "m.f"), ("m.f", "m.f")]

def knotImports : Digraph String := .ofEdges [("m", "os")]

/-- A cycle of `knot` and one that it does not have. -/
def knotCycles : List (List String) :=
  [["m.f", "m.\"g\"\n  n0 --> n1", "m.f"], ["m.f", "os", "m.f"]]

theorem draw_styles_cycle_edges_knot :
    let drawing := draw .mermaid knot (some knotImports) knotCycles
    let ss : List Statement := [.node 0 "m.#quot;g#quot;\n  n0 --> n1", .node 1 "m.f",
      .connection ⟨0, 1, true⟩, .connection ⟨1, 0, true⟩, .connection ⟨1, 1, false⟩, .style [0, 1]]
    let text := "graph TD\n  n0[\"m\"]\n  n1[\"os\"]\n  n0 --> n1\n"
    (Format.mermaid.grammar.read drawing.callGraph.toList = some ss ∧
      Shows .mermaid knot (fun a b => ∃ c ∈ knotCycles, [a, b] <:+: c) ss) ∧
    drawing.importGraph = some text ∧
    ∃ g ss, some knotImports = some g ∧ Format.mermaid.grammar.read text.toList = some ss ∧
      Shows .mermaid g (fun _ _ => False) ss := by
  intro drawing ss text
  obtain ⟨⟨read, hread, hshows⟩, himports⟩ :=
    draw_styles_cycle_edges .mermaid knot (some knotImports) knotCycles
  have hss : Format.mermaid.grammar.read drawing.callGraph.toList = some ss :=
    Format.mermaid.read_callGraph (.clustered knot (cycleEdges knotCycles))
  have htext : drawing.importGraph = some text := by decide
  obtain rfl : read = ss := Option.some.inj (hread.symm.trans hss)
  exact ⟨⟨hss, hshows⟩, htext, himports text htext⟩

end CallAtlas.Diagram
