import CallAtlas.Proofs.Files.Writing
import CallAtlas.Proofs.Pipeline.Staged
/-!
# Written cycles are accepted

The list of cycles that one stage writes is checked by the stage that reads it. Whatever the names are
and whatever way the path takes, a written list is read back if and only if each of its paths has an
edge and ends where it starts. What a search finds is of this kind, so that diagrams are drawn with
exactly the cycles that were found.
-/

namespace CallAtlas

namespace Does

variable {α β : Type} {x : Action α} {a : α} {t u : FileTree}

theorem run_bind_congr {f g : α → Action β}
    (h : ∀ a u, Does x t a u → (f a).run u = (g a).run u) : (x >>= f).run t = (x >>= g).run t := by
  rw [Action.run_bind, Action.run_bind]
  split
  · rename_i a u hx
    exact h a u hx
  · rfl

theorem eq_of_ask {f : FileTree → Except Files.Fault α} (h : Does (Action.ask f) t a u) :
    u = t := by
  obtain ⟨_, _, hget, h⟩ := h.exists_of_bind
  cases hget
  cases hf : f t with
  | error fault =>
    rw [hf] at h
    cases h
  | ok b =>
    rw [hf] at h
    exact h.eq_of_pure.2

end Does

namespace Artifacts

variable {t u : FileTree} {p q : Path} {text : String} {producer : Producer}
variable {cs : List (List String)}

/-! ### Reading documents -/

theorem eq_of_readDocument (h : Does (readDocument p producer) t text u) : u = t := by
  obtain ⟨_, _, hget, h⟩ := h.exists_of_bind
  cases hget
  split at h
  · exact h.eq_of_ask
  · cases h

theorem eq_of_readGraph {d : GraphDocument} (h : Does (readGraph p) t d u) : u = t := by
  obtain ⟨text, v, hread, hdecoded⟩ := h.exists_of_bind
  obtain rfl := eq_of_readDocument hread
  cases hd : GraphDocument.read text with
  | error e =>
    rw [hd] at hdecoded
    cases hdecoded
  | ok d =>
    rw [hd] at hdecoded
    exact hdecoded.eq_of_pure.2

theorem does_readDocument_of_readText (hthere : t.hasEntry p = true)
    (htext : t.readText p = .ok text) (producer : Producer) :
    Does (readDocument p producer) t text t := by
  apply (Does.get t).bind
  rw [if_pos hthere]
  exact .ask htext

/-- The written form of a list of cycles is judged by its paths alone. -/
theorem run_readCycles (hthere : t.hasEntry p = true)
    (htext : t.readText p = .ok (CycleList.write cs)) :
    ((∀ c ∈ cs, 2 ≤ c.length ∧ c.head? = c.getLast?) → Does (readCycles p) t cs t) ∧
    ((∃ c ∈ cs, ¬(2 ≤ c.length ∧ c.head? = c.getLast?)) →
      ∃ flaw, (readCycles p).run t = (.error (.malformedDocument p (.cycle flaw)), t)) := by
  have hread := does_readDocument_of_readText hthere htext .cycles
  constructor
  · intro hclosed
    have hflaw : CycleList.flaw? cs = none := (CycleList.flawFrom_eq_none_iff 0).2 hclosed
    apply hread.bind
    rw [CycleList.read_write]
    dsimp only
    rw [hflaw]
    exact .pure cs t
  · rintro ⟨c, hc, hflawed⟩
    cases hflaw : CycleList.flaw? cs with
    | none => exact absurd ((CycleList.flawFrom_eq_none_iff 0).1 hflaw c hc) hflawed
    | some flaw =>
      refine ⟨flaw, hread.run_bind.trans ?_⟩
      rw [CycleList.read_write]
      dsimp only
      rw [hflaw]
      rfl

/-! ### Writing documents -/

theorem readText_of_writeCycles {a : Artifacts} (h : Does (a.writeCycles cs) t q u) :
    q = a.cyclesPath ∧ u.hasEntry q = true ∧ u.readText q = .ok (CycleList.write cs) := by
  obtain ⟨_, v, hwrite, h⟩ := h.exists_of_bind
  obtain ⟨rfl, rfl⟩ := h.eq_of_pure
  rw [cyclesPath, writeDocument_join Pipeline.isName_cycles] at hwrite
  obtain ⟨_, w, -, hwrite⟩ := hwrite.exists_of_bind
  exact ⟨rfl, FileTree.readText_of_writeText hwrite.of_change⟩

theorem exists_does_writeCycles {a : Artifacts} {place : Place} (h : t.LeadsTo a.directory place)
    (hplain : t.IsPlainAt (place ++ ["cycles.json"])) (cs : List (List String)) :
    ∃ u, Does (a.writeCycles cs) t a.cyclesPath u :=
  ⟨_, (does_writeDocument_join h Pipeline.isName_cycles hplain _).bind (.pure _ _)⟩

end Artifacts

namespace Pipeline

open Artifacts

variable {t u : FileTree} {a : Artifacts} {graph : Path} {cs : List (List String)}

/-- Where the cycles of an output directory are accepted, they are the ones that are drawn. -/
theorem run_exportFromArtifacts (hread : Does (readCycles a.cyclesPath) u cs u)
    (hthere : u.hasEntry a.cyclesPath = true) (format : Diagram.Format) {named : Option Path}
    (hnamed : named = none ∨ named = some a.cyclesPath) :
    (exportFromArtifacts graph named a format).run u =
      (readGraph graph >>= fun d =>
        a.writeDiagrams format (Diagram.draw format d.calls (some d.imports) cs)).run u := by
  apply Does.run_bind_congr
  intro d v hgraph
  obtain rfl := eq_of_readGraph hgraph
  rcases hnamed with rfl | rfl
  · dsimp only
    rw [(Does.get v).run_bind, if_pos hthere]
    exact hread.run_bind
  · exact hread.run_bind

theorem writes_of_cyclesFromArtifact {source : CycleSource} {dedupe : Bool}
    (h : Does (cyclesFromArtifact graph a source dedupe) t cs u) :
    (∃ g, cs = detectCycles g dedupe) ∧ Does (a.writeCycles cs) t a.cyclesPath u := by
  obtain ⟨d, v, hgraph, hsearch⟩ := h.exists_of_bind
  obtain rfl := eq_of_readGraph hgraph
  obtain ⟨_, w, hdiscard, hreturn⟩ := hsearch.exists_of_bind
  obtain ⟨rfl, rfl⟩ := hreturn.eq_of_pure
  obtain ⟨q, x, hwrite, hdiscard⟩ := hdiscard.exists_of_bind
  obtain ⟨-, rfl⟩ := hdiscard.eq_of_pure
  refine ⟨⟨_, rfl⟩, ?_⟩
  rwa [(readText_of_writeCycles hwrite).1] at hwrite

end Pipeline

/-- Any list of paths can be written into a directory. What has been written is read back as it was if
each path has an edge and ends where it starts, and rejected otherwise. Every cycle that a search finds
is such a path, and diagrams of written graphs are drawn with just the cycles that were found and
written before. -/
theorem cycles_read_back (a : Artifacts) :
    (∀ cs t place, t.LeadsTo a.directory place → t.IsPlainAt (place ++ ["cycles.json"]) →
      ∃ u, Does (a.writeCycles cs) t a.cyclesPath u) ∧
    (∀ cs t q u, Does (a.writeCycles cs) t q u →
      ((∀ c ∈ cs, 2 ≤ c.length ∧ c.head? = c.getLast?) → Does (Artifacts.readCycles q) u cs u) ∧
      ((∃ c ∈ cs, ¬(2 ≤ c.length ∧ c.head? = c.getLast?)) → ∃ flaw,
        (Artifacts.readCycles q).run u = (.error (.malformedDocument q (.cycle flaw)), u))) ∧
    (∀ g dedupe, ∀ c ∈ detectCycles g dedupe, 2 ≤ c.length ∧ c.head? = c.getLast?) ∧
    ∀ graph source dedupe t cs u, Does (Pipeline.cyclesFromArtifact graph a source dedupe) t cs u →
      Does (Artifacts.readCycles a.cyclesPath) u cs u ∧
      ∀ graph format named, named = none ∨ named = some a.cyclesPath →
        (Pipeline.exportFromArtifacts graph named a format).run u =
          (Artifacts.readGraph graph >>= fun d =>
            a.writeDiagrams format (Diagram.draw format d.calls (some d.imports) cs)).run u := by
  refine ⟨fun cs t place hleads hplain => Artifacts.exists_does_writeCycles hleads hplain cs, ?_,
    fun g dedupe c hc => CycleList.closed_of_mem_detectCycles hc, ?_⟩
  · intro cs t q u hwrite
    obtain ⟨-, hthere, htext⟩ := Artifacts.readText_of_writeCycles hwrite
    exact Artifacts.run_readCycles hthere htext
  · intro graph source dedupe t cs u hstage
    obtain ⟨⟨g, rfl⟩, hwrite⟩ := Pipeline.writes_of_cyclesFromArtifact hstage
    obtain ⟨-, hthere, htext⟩ := Artifacts.readText_of_writeCycles hwrite
    have hread := (Artifacts.run_readCycles hthere htext).1 fun c hc =>
      CycleList.closed_of_mem_detectCycles hc
    refine ⟨hread, fun graph format named hnamed => ?_⟩
    exact Pipeline.run_exportFromArtifacts hread hthere format hnamed

/-- Two functions with odd names that call each other. -/
def oddAggregation : Survey.Aggregation := { callGraph := .ofEdges [("", "\"\n"), ("\"\n", "")] }

theorem cycles_read_back_odd :
    let a : Artifacts := ⟨⟨"out"⟩⟩
    (∃ u, Does (a.writeCycles [["", "\"\n", ""]]) Pipeline.recursiveProject a.cyclesPath u ∧
      Does (Artifacts.readCycles a.cyclesPath) u [["", "\"\n", ""]] u) ∧
    (∃ u flaw, Does (a.writeCycles [["", "\"\n"]]) Pipeline.recursiveProject a.cyclesPath u ∧
      (Artifacts.readCycles a.cyclesPath).run u =
        (.error (.malformedDocument a.cyclesPath (.cycle flaw)), u)) ∧
    ∃ t u, Does (Pipeline.cyclesFromArtifact a.graphPath a .callGraph true) t [["", "\"\n", ""]] u ∧
      (Pipeline.exportFromArtifacts a.graphPath none a .dot).run u =
        (Artifacts.readGraph a.graphPath >>= fun d =>
          a.writeDiagrams .dot
            (Diagram.draw .dot d.calls (some d.imports) [["", "\"\n", ""]])).run u := by
  intro a
  obtain ⟨hwrites, hjudged, -, hstaged⟩ := cycles_read_back a
  have hout := Pipeline.isEmptyDirectory_recursiveProject.1.holds
  have hplain : Pipeline.recursiveProject.IsPlainAt (["out"] ++ ["cycles.json"]) := .inl rfl
  refine ⟨?_, ?_, ?_⟩
  · obtain ⟨u, hwrite⟩ := hwrites [["", "\"\n", ""]] _ _ hout.leads hplain
    exact ⟨u, hwrite, (hjudged _ _ _ _ hwrite).1 (by decide)⟩
  · obtain ⟨u, hwrite⟩ := hwrites [["", "\"\n"]] _ _ hout.leads hplain
    obtain ⟨flaw, hread⟩ := (hjudged _ _ _ _ hwrite).2 (by decide)
    exact ⟨u, flaw, hwrite, hread⟩
  · obtain ⟨t, -, ht⟩ := Pipeline.does_writeGraph oddAggregation hout
    obtain ⟨u, hstage, -⟩ := Pipeline.does_cyclesFromArtifact true ht
    have hcycles : detectCycles oddAggregation.callGraph true = [["", "\"\n", ""]] := by
      decide +kernel
    rw [hcycles] at hstage
    obtain ⟨-, hexport⟩ := hstaged _ _ _ _ _ _ hstage
    exact ⟨t, u, hstage, hexport _ _ _ (.inl rfl)⟩

end CallAtlas
