import CallAtlas.Proofs.Diagram.CycleStyling
import CallAtlas.Proofs.Ordered.Extensionality
/-!
# What diagrams tell apart

A diagram is drawn from the nodes, the edges and the marks of a graph alone, and where the labels of
its nodes are read without ambiguity it determines all three. Digraphs of Graphviz show every name as
it is. A flowchart shows a quotation mark as an entity, and so it confuses a name that holds the text
of this entity with another one.
-/

namespace CallAtlas.Diagram

variable {format : Format} {g h : Digraph String} {cs ds : List (List String)}

/-- Two graphs have the same nodes and edges, and of these the same ones lie on the given cycles. -/
structure ShowSame (g h : Digraph String) (cs ds : List (List String)) : Prop where
  nodes_eq : g.nodes = h.nodes
  edges_eq : g.edges = h.edges
  marked_iff : ∀ a b, (a, b) ∈ g.edges → ((∃ c ∈ cs, [a, b] <:+: c) ↔ ∃ c ∈ ds, [a, b] <:+: c)

namespace Shows

variable {S T : String → String → Prop} {ss : List Statement}
variable (hg : Shows format g S ss) (hh : Shows format h T ss)
include hg hh

theorem exists_getElem? {n : Nat} {a : String} (ha : g.nodes.toList[n]? = some a) :
    ∃ b, h.nodes.toList[n]? = some b ∧ format.shown a = format.shown b :=
  (hh.node_mem_iff n (format.shown a)).1 ((hg.node_mem_iff n (format.shown a)).2 ⟨a, ha, rfl⟩)

theorem map_shown_eq :
    g.nodes.toList.map format.shown = h.nodes.toList.map format.shown := by
  apply List.ext_getElem?
  intro n
  rw [List.getElem?_map, List.getElem?_map]
  cases ha : g.nodes.toList[n]? with
  | some a =>
    obtain ⟨b, hb, hshown⟩ := exists_getElem? hg hh ha
    rw [hb, Option.map_some, Option.map_some, hshown]
  | none =>
    cases hb : h.nodes.toList[n]? with
    | none => rfl
    | some b =>
      obtain ⟨a, ha', -⟩ := exists_getElem? hh hg hb
      rw [ha] at ha'
      cases ha'

theorem nodes_eq (hshown : ∀ a ∈ g.nodes, ∀ b ∈ h.nodes, format.shown a = format.shown b → a = b) :
    g.nodes = h.nodes := by
  apply OrderedSet.ext
  apply List.ext_getElem?
  intro n
  have hlabel := congrArg (·[n]?) (map_shown_eq hg hh)
  simp only [List.getElem?_map] at hlabel
  cases ha : g.nodes.toList[n]? with
  | none =>
    rw [ha, Option.map_none, eq_comm, Option.map_eq_none_iff] at hlabel
    exact hlabel.symm
  | some a =>
    rw [ha, Option.map_some, eq_comm, Option.map_eq_some_iff] at hlabel
    obtain ⟨b, hb, hlabel⟩ := hlabel
    rw [hb, hshown a (List.mem_of_getElem? ha) b (List.mem_of_getElem? hb) hlabel.symm]

theorem edges_eq (hnodes : g.nodes = h.nodes) :
    g.edges = h.edges ∧ ∀ a b, (a, b) ∈ g.edges → (S a b ↔ T a b) := by
  have hpairs : ∀ {es fs : List (String × String)} {connections : List Connection},
      List.Forall₂ (fun e c => g.nodes.toList[c.source]? = some e.1 ∧
        g.nodes.toList[c.target]? = some e.2 ∧ (c.inCycle = true ↔ S e.1 e.2)) es connections →
      List.Forall₂ (fun e c => h.nodes.toList[c.source]? = some e.1 ∧
        h.nodes.toList[c.target]? = some e.2 ∧ (c.inCycle = true ↔ T e.1 e.2)) fs connections →
      es = fs ∧ ∀ a b, (a, b) ∈ es → (S a b ↔ T a b) := by
    intro es fs connections hes hfs
    induction hes generalizing fs with
    | nil =>
      cases hfs
      exact ⟨rfl, fun a b h => absurd h List.not_mem_nil⟩
    | @cons e c es connections he hes ih =>
      obtain ⟨source, target⟩ := e
      cases hfs with
      | @cons f _ fs _ hf hfs =>
        obtain ⟨hsource, htarget, hstyled⟩ := he
        obtain ⟨hsource', htarget', hstyled'⟩ := hf
        rw [← hnodes] at hsource' htarget'
        obtain rfl : (source, target) = f :=
          Prod.ext (Option.some.inj (hsource.symm.trans hsource'))
            (Option.some.inj (htarget.symm.trans htarget'))
        obtain ⟨rfl, hrest⟩ := ih hfs
        refine ⟨rfl, fun a b hmem => ?_⟩
        rcases List.mem_cons.1 hmem with heq | hmem
        · cases heq
          exact hstyled.symm.trans hstyled'
        · exact hrest a b hmem
  exact hpairs hg.connected hh.connected

end Shows

/-! ### Layouts of graphs with the same nodes and edges -/

namespace Layout

theorem connect_congr {labels : List String} {highlighted highlighted' : List (String × String)}
    (hedges : g.edges = h.edges) (hmarks : ∀ e ∈ g.edges, e ∈ highlighted ↔ e ∈ highlighted') :
    connect labels highlighted g = connect labels highlighted' h := by
  rw [connect, connect, ← hedges]
  apply List.map_congr_left
  rintro ⟨a, b⟩ he
  have hcontains : highlighted.contains (a, b) = highlighted'.contains (a, b) := by
    rw [Bool.eq_iff_iff, List.contains_iff_mem, List.contains_iff_mem]
    exact hmarks (a, b) he
  exact congrArg (Connection.mk _ _) hcontains

theorem clustered_congr (hsame : ShowSame g h cs ds) :
    clustered g (cycleEdges cs) = clustered h (cycleEdges ds) := by
  have hgroups : moduleGroups g = moduleGroups h := by
    rw [moduleGroups, moduleGroups, hsame.nodes_eq]
  have hmarks : ∀ e ∈ g.edges, e ∈ cycleEdges cs ↔ e ∈ cycleEdges ds := by
    rintro ⟨a, b⟩ he
    rw [mem_cycleEdges_iff, mem_cycleEdges_iff]
    exact hsame.marked_iff a b he
  rw [clustered, clustered, hgroups, hsame.nodes_eq, connect_congr hsame.edges_eq hmarks]

theorem flat_congr (hnodes : g.nodes = h.nodes) (hedges : g.edges = h.edges) :
    flat g = flat h := by
  rw [flat, flat, hnodes, connect_congr hedges fun e _ => Iff.rfl]

end Layout

/-! ### Texts of diagrams -/

/-- Call graphs that are drawn alike show the same labels and the same connections. -/
theorem Format.labels_eq_of_callGraph_eq (format : Format)
    (htext : format.callGraph (.clustered g (cycleEdges cs)) =
      format.callGraph (.clustered h (cycleEdges ds))) :
    g.nodes.toList.map format.shown = h.nodes.toList.map format.shown ∧
      (Layout.clustered g (cycleEdges cs)).connections =
        (Layout.clustered h (cycleEdges ds)).connections := by
  obtain ⟨ss, hread, hshows⟩ := shows_callGraph format g cs
  obtain ⟨ss', hread', hshows'⟩ := shows_callGraph format h ds
  have hdeclared : ∀ l : Layout, ∀ s ∈ l.clusters.entries.flatMap fun e =>
      l.declare format.shown e.2, ∃ n label, s = .node n label := by
    intro l s hs
    obtain ⟨e, -, hs⟩ := List.mem_flatMap.1 hs
    obtain ⟨n, -, rfl⟩ := List.mem_map.1 hs
    exact ⟨_, _, rfl⟩
  constructor
  · rw [htext, hread', Option.some.injEq] at hread
    subst hread
    exact hshows.map_shown_eq hshows'
  · have hstatements := format.read_callGraph (.clustered g (cycleEdges cs))
    rw [htext, format.read_callGraph, Option.some.injEq] at hstatements
    have hconnections := congrArg connections hstatements
    rw [connections_parts (hdeclared _), connections_parts (hdeclared _)] at hconnections
    exact hconnections.symm

/-- Where names are told apart by what is shown of them, call graphs are drawn alike only if they are
the same apart from keys. -/
theorem Format.callGraph_eq_iff (format : Format)
    (hshown : ∀ a ∈ g.nodes, ∀ b ∈ h.nodes, format.shown a = format.shown b → a = b) :
    format.callGraph (.clustered g (cycleEdges cs)) =
      format.callGraph (.clustered h (cycleEdges ds)) ↔ ShowSame g h cs ds := by
  constructor
  · intro htext
    obtain ⟨ss, hread, hshows⟩ := shows_callGraph format g cs
    obtain ⟨ss', hread', hshows'⟩ := shows_callGraph format h ds
    rw [htext, hread', Option.some.injEq] at hread
    subst hread
    have hnodes := hshows.nodes_eq hshows' hshown
    obtain ⟨hedges, hmarked⟩ := hshows.edges_eq hshows' hnodes
    exact ⟨hnodes, hedges, hmarked⟩
  · intro hsame
    rw [Layout.clustered_congr hsame]

theorem Format.importGraph_eq_iff (format : Format)
    (hshown : ∀ a ∈ g.nodes, ∀ b ∈ h.nodes, format.shown a = format.shown b → a = b) :
    format.importGraph (.flat g) = format.importGraph (.flat h) ↔
      g.nodes = h.nodes ∧ g.edges = h.edges := by
  constructor
  · intro htext
    obtain ⟨ss, hread, hshows⟩ := shows_importGraph format g
    obtain ⟨ss', hread', hshows'⟩ := shows_importGraph format h
    rw [htext, hread', Option.some.injEq] at hread
    subst hread
    have hnodes := hshows.nodes_eq hshows' hshown
    exact ⟨hnodes, (hshows.edges_eq hshows' hnodes).1⟩
  · rintro ⟨hnodes, hedges⟩
    rw [Layout.flat_congr hnodes hedges]

/-- Two call graphs have the same digraph if and only if they have the same nodes and edges, with the
same edges on the given cycles, and two import graphs if and only if they have the same nodes and
edges. -/
theorem digraph_eq_iff (g h : Digraph String) (cs ds : List (List String)) :
    (Dot.callGraph (.clustered g (cycleEdges cs)) = Dot.callGraph (.clustered h (cycleEdges ds)) ↔
      ShowSame g h cs ds) ∧
    (Dot.importGraph (.flat g) = Dot.importGraph (.flat h) ↔
      g.nodes = h.nodes ∧ g.edges = h.edges) := by
  constructor
  · exact Format.callGraph_eq_iff .dot fun a _ b _ heq => heq
  · exact Format.importGraph_eq_iff .dot fun a _ b _ heq => heq

/-! ### Entities -/

namespace Mermaid

/-- Whether a name holds the text that is written for a quotation mark. -/
def HoldsEntity (name : String) : Prop := "#quot;".toList <:+: name.toList

instance (name : String) : Decidable (HoldsEntity name) :=
  inferInstanceAs (Decidable ("#quot;".toList <:+: name.toList))

/-- What is written for a character. -/
def shownChar (c : Char) : List Char := if c == '"' then "#quot;".toList else [c]

/-- A text without the beginning of an entity is read off as it stands. -/
theorem isPrefix_of_append_eq {text rest cs : List Char} (htext : '#' ∉ text)
    (h : text ++ rest = cs.flatMap shownChar) : text <+: cs := by
  induction text generalizing cs with
  | nil => exact List.nil_prefix
  | cons c text ih =>
    rw [List.mem_cons, not_or] at htext
    cases cs with
    | nil => simp at h
    | cons d cs =>
      rw [List.flatMap_cons, shownChar] at h
      split at h
      · exact absurd (List.cons.inj h).1.symm htext.1
      · obtain ⟨rfl, hrest⟩ := List.cons.inj h
        exact List.cons_prefix_cons.2 ⟨rfl, ih htext.2 hrest⟩

theorem not_isPrefix_entity {c : Char} {cs ds : List Char} (hc : c ≠ '"')
    (h : (c :: cs).flatMap shownChar = ('"' :: ds).flatMap shownChar) :
    "#quot;".toList <+: c :: cs := by
  have hshown : shownChar c = [c] := if_neg (by simpa using hc)
  rw [List.flatMap_cons, hshown, List.flatMap_cons] at h
  obtain ⟨rfl, hrest⟩ := List.cons.inj h
  have hbehind : "quot;".toList ++ ds.flatMap shownChar = cs.flatMap shownChar := hrest.symm
  exact List.cons_prefix_cons.2 ⟨rfl, isPrefix_of_append_eq (by decide) hbehind⟩

theorem flatMap_shownChar_inj {cs ds : List Char} (hcs : ¬"#quot;".toList <:+: cs)
    (hds : ¬"#quot;".toList <:+: ds) (h : cs.flatMap shownChar = ds.flatMap shownChar) :
    cs = ds := by
  induction cs generalizing ds with
  | nil =>
    cases ds with
    | nil => rfl
    | cons d ds =>
      rw [List.flatMap_cons, shownChar] at h
      split at h <;> simp at h
  | cons c cs ih =>
    cases ds with
    | nil =>
      rw [List.flatMap_cons, shownChar] at h
      split at h <;> simp at h
    | cons d ds =>
      have htail : cs.flatMap shownChar = ds.flatMap shownChar → cs = ds :=
        ih (fun hin => hcs (hin.trans (List.suffix_cons c cs).isInfix))
          fun hin => hds (hin.trans (List.suffix_cons d ds).isInfix)
      by_cases hc : c = '"'
      · by_cases hd : d = '"'
        · subst hc hd
          rw [List.flatMap_cons, List.flatMap_cons] at h
          rw [htail (List.append_cancel_left h)]
        · subst hc
          exact absurd (not_isPrefix_entity hd h.symm).isInfix hds
      · by_cases hd : d = '"'
        · subst hd
          exact absurd (not_isPrefix_entity hc h).isInfix hcs
        · have hshownc : shownChar c = [c] := if_neg (by simpa using hc)
          have hshownd : shownChar d = [d] := if_neg (by simpa using hd)
          rw [List.flatMap_cons, List.flatMap_cons, hshownc, hshownd] at h
          obtain ⟨rfl, hrest⟩ := List.cons.inj h
          rw [htail hrest]

theorem eq_of_shown_eq {a b : String} (ha : ¬HoldsEntity a) (hb : ¬HoldsEntity b)
    (h : shown a = shown b) : a = b := by
  have hchars : a.toList.flatMap shownChar = b.toList.flatMap shownChar := String.ofList_injective h
  exact String.toList_inj.1 (flatMap_shownChar_inj ha hb hchars)

end Mermaid

/-- Call graphs with the same flowchart show the same labels and the same connections. Where no name
holds the entity of a quotation mark, two call graphs have the same flowchart if and only if they have
the same nodes and edges, with the same edges on the given cycles. -/
theorem flowchart_eq_iff_of_no_entity (g h : Digraph String) (cs ds : List (List String)) :
    (Mermaid.callGraph (.clustered g (cycleEdges cs)) =
        Mermaid.callGraph (.clustered h (cycleEdges ds)) →
      g.nodes.toList.map Mermaid.shown = h.nodes.toList.map Mermaid.shown ∧
        (Layout.clustered g (cycleEdges cs)).connections =
          (Layout.clustered h (cycleEdges ds)).connections) ∧
    ((∀ a ∈ g.nodes, ¬Mermaid.HoldsEntity a) → (∀ a ∈ h.nodes, ¬Mermaid.HoldsEntity a) →
      (Mermaid.callGraph (.clustered g (cycleEdges cs)) =
          Mermaid.callGraph (.clustered h (cycleEdges ds)) ↔ ShowSame g h cs ds)) := by
  constructor
  · exact Format.labels_eq_of_callGraph_eq .mermaid
  · intro hg hh
    exact Format.callGraph_eq_iff .mermaid
      fun a ha b hb heq => Mermaid.eq_of_shown_eq (hg a ha) (hh b hb) heq

/-- The cycle of `knot` from its other node on, and no further one. -/
def turnedCycles : List (List String) :=
  [["m.\"g\"\n  n0 --> n1", "m.f", "m.\"g\"\n  n0 --> n1"]]

theorem flowchart_eq_iff_of_no_entity_knot :
    (∀ a ∈ knot.nodes, ¬Mermaid.HoldsEntity a) ∧
      Mermaid.callGraph (.clustered knot (cycleEdges knotCycles)) =
        Mermaid.callGraph (.clustered knot (cycleEdges turnedCycles)) ∧
      ShowSame knot knot knotCycles turnedCycles := by
  have hnames : ∀ a ∈ knot.nodes.toList, ¬Mermaid.HoldsEntity a := by decide
  have htext : Mermaid.callGraph (.clustered knot (cycleEdges knotCycles)) =
      Mermaid.callGraph (.clustered knot (cycleEdges turnedCycles)) := by decide +kernel
  have hiff := (flowchart_eq_iff_of_no_entity knot knot knotCycles turnedCycles).2 hnames hnames
  exact ⟨hnames, htext, hiff.1 htext⟩

/-- A name with a quotation mark has the label of a name with its entity, and the flowcharts of two
different graphs are the same. -/
theorem flowchart_confuses_entity :
    Mermaid.quoted "a\"" = Mermaid.quoted "a#quot;" ∧
      Mermaid.callGraph (.clustered (.addKey ∅ "a\"") (cycleEdges [])) =
        Mermaid.callGraph (.clustered (.addKey ∅ "a#quot;") (cycleEdges [])) ∧
      ¬ShowSame (.addKey ∅ "a\"") (.addKey ∅ "a#quot;") [] [] := by
  refine ⟨by decide, by decide, fun hsame => ?_⟩
  exact absurd hsame.nodes_eq (by decide)

end CallAtlas.Diagram
