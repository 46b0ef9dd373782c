import CallAtlas.Proofs.Files.Growth
import CallAtlas.Proofs.Pipeline.Staged
/-!
# What a full run leaves behind

Behind the survey a full run writes two documents and one or two diagrams. `Saves` describes the trees
that it passes through. It depends on what stands at the places of the artifacts only in that there
must not be anything but files, and what is left behind is such that saving it again changes nothing.
-/

namespace CallAtlas

open CallAtlas.Path (IsName)
open FileTree (SameApart Grown PlainAt entry?)

namespace Artifacts

/-- What a full run leaves behind. -/
structure Saved where
  graph : GraphDocument
  cycles : List (List String)
  drawing : Diagram.Drawing

/-- Everything that a full run does behind the survey. -/
def save (a : Artifacts) (format : Diagram.Format) (x : Saved) : Action (List Path) := do
  let first ← a.writeGraph x.graph
  let second ← a.writeCycles x.cycles
  let third ← a.writeDiagrams format x.drawing
  return first :: second :: third

def written (a : Artifacts) (format : Diagram.Format) (x : Saved) : List Path :=
  [a.graphPath, a.cyclesPath, a.diagramPath "call_graph" format] ++
    (x.drawing.importGraph.map fun _ => a.diagramPath "import_graph" format).toList

/-! ### Places of artifacts -/

def documentPlaces (place : Place) : List Place :=
  [place ++ ["call_graph.json"], place ++ ["cycles.json"]]

def diagramPlaces (format : Diagram.Format) (drawn : Place) : List Place :=
  [drawn ++ ["call_graph" ++ "." ++ format.extension],
    drawn ++ ["import_graph" ++ "." ++ format.extension]]

/-- The places of all artifacts, given where the output directory and that of the diagrams are. -/
def places (format : Diagram.Format) (place drawn : Place) : List Place :=
  documentPlaces place ++ diagramPlaces format drawn

theorem nodup_places (format : Diagram.Format) (place drawn : Place) :
    (places format place drawn).Nodup := by
  cases format <;> simp [places, documentPlaces, diagramPlaces, Diagram.Format.extension]

variable {a : Artifacts} {format : Diagram.Format} {x : Saved} {place drawn : Place}
variable {t t' t₁ t₂ u v : FileTree} {A : List Place}

/-! ### The trees on the way -/

/-- The tree with a file in a place, or without one if it is not to be there. -/
def replaced (t : FileTree) (q : Place) : Option String → FileTree
  | some text => t.put q (.file text.toUTF8)
  | none => t.drop q

namespace Saved

/-- The tree with the documents in the output directory. -/
def documented (x : Saved) (place : Place) (t : FileTree) : FileTree :=
  (t.put (place ++ ["call_graph.json"]) (.file x.graph.write.toUTF8)).put
    (place ++ ["cycles.json"]) (.file (CycleList.write x.cycles).toUTF8)

/-- The tree with the diagrams in their directory. Where there is none of the imports, an old one does
not remain. -/
def illustrated (x : Saved) (format : Diagram.Format) (drawn : Place) (t : FileTree) : FileTree :=
  replaced
    (t.put (drawn ++ ["call_graph" ++ "." ++ format.extension]) (.file x.drawing.callGraph.toUTF8))
    (drawn ++ ["import_graph" ++ "." ++ format.extension]) x.drawing.importGraph

theorem sameApart_documented (h : SameApart (documentPlaces place ++ A) t t') :
    SameApart A (x.documented place t) (x.documented place t') :=
  (h.put_head _).put_head _

theorem sameApart_illustrated (h : SameApart (diagramPlaces format drawn) t t') :
    x.illustrated format drawn t' = x.illustrated format drawn t := by
  have hcalls := h.put_head (.file x.drawing.callGraph.toUTF8)
  unfold illustrated
  cases x.drawing.importGraph with
  | some text => exact (hcalls.put_head _).eq
  | none => exact hcalls.drop_head.eq

theorem sameApart_put_documents (x : Saved) (place : Place) (t : FileTree) :
    SameApart (documentPlaces place) t (x.documented place t) :=
  (SameApart.of_put (by simp [documentPlaces]) _).trans
    (SameApart.of_put (by simp [documentPlaces]) _)

theorem sameApart_put_diagrams (x : Saved) (format : Diagram.Format) (drawn : Place)
    (t : FileTree) : SameApart (diagramPlaces format drawn) t (x.illustrated format drawn t) := by
  have hcalls : SameApart (diagramPlaces format drawn) t
      (t.put (drawn ++ ["call_graph" ++ "." ++ format.extension])
        (.file x.drawing.callGraph.toUTF8)) :=
    .of_put (by simp [diagramPlaces]) _
  unfold illustrated
  cases x.drawing.importGraph with
  | some text => exact hcalls.trans (.of_put (by simp [diagramPlaces]) _)
  | none => exact hcalls.trans (.of_drop (by simp [diagramPlaces]))

theorem illustrated_illustrated (x : Saved) (format : Diagram.Format) (drawn : Place)
    (t : FileTree) :
    x.illustrated format drawn (x.illustrated format drawn t) = x.illustrated format drawn t :=
  sameApart_illustrated (sameApart_put_diagrams x format drawn t)

section Plain
variable (hplain : PlainAt (documentPlaces place) t)
include hplain

theorem plain_documents : t.IsPlainAt (place ++ ["call_graph.json"]) ∧
    ∀ e, (t.put (place ++ ["call_graph.json"]) (.file e)).IsPlainAt (place ++ ["cycles.json"]) := by
  have hgraph := hplain (place ++ ["call_graph.json"]) (by simp [documentPlaces])
  have hcycles := hplain (place ++ ["cycles.json"]) (by simp [documentPlaces])
  exact ⟨hgraph, hcycles.put_file hgraph⟩

theorem keeps_documented (x : Saved) : t.Keeps (x.documented place t) := by
  obtain ⟨hgraph, hcycles⟩ := plain_documents hplain
  exact (hgraph.keeps_put _).trans ((hcycles _).keeps_put _)

theorem plainAt_documented (h : PlainAt A t) (x : Saved) : PlainAt A (x.documented place t) := by
  obtain ⟨hgraph, hcycles⟩ := plain_documents hplain
  intro q hq
  exact ((h q hq).put_file hgraph _).put_file (hcycles _) _

theorem entry?_documented (x : Saved) :
    entry? (x.documented place t) (place ++ ["call_graph.json"]) =
        some (.file x.graph.write.toUTF8) ∧
      entry? (x.documented place t) (place ++ ["cycles.json"]) =
        some (.file (CycleList.write x.cycles).toUTF8) := by
  obtain ⟨hgraph, hcycles⟩ := plain_documents hplain
  have hne := (hcycles x.graph.write.toUTF8).ne_nil
  rw [documented, FileTree.entry?_put hne, FileTree.entry?_put hne,
    FileTree.entry?_put hgraph.ne_nil]
  simp

end Plain

theorem plainAt_illustrated (h : PlainAt (diagramPlaces format drawn) t) (x : Saved) :
    PlainAt (diagramPlaces format drawn) (x.illustrated format drawn t) := by
  have hcalls := h (drawn ++ ["call_graph" ++ "." ++ format.extension]) (by simp [diagramPlaces])
  intro q hq
  have hq' := (h q hq).put_file hcalls x.drawing.callGraph.toUTF8
  have himports := (h (drawn ++ ["import_graph" ++ "." ++ format.extension])
    (by simp [diagramPlaces])).put_file hcalls x.drawing.callGraph.toUTF8
  unfold illustrated
  cases x.drawing.importGraph with
  | some text => exact hq'.put_file himports _
  | none => exact hq'.drop himports.ne_nil

end Saved

theorem does_writeDiagrams_places (hcreated : t.createDirectories a.diagramsDirectory = .ok t₂)
    (hleads : t₂.LeadsTo a.diagramsDirectory drawn)
    (hplain : PlainAt (diagramPlaces format drawn) t₂) (x : Saved) :
    Does (a.writeDiagrams format x.drawing) t
      (a.diagramPath "call_graph" format ::
        (x.drawing.importGraph.map fun _ => a.diagramPath "import_graph" format).toList)
      (x.illustrated format drawn t₂) := by
  obtain ⟨hcallsName, himportsName⟩ := isName_diagram format
  have hcalls := hplain (drawn ++ ["call_graph" ++ "." ++ format.extension])
    (by simp [diagramPlaces])
  have himports := (hplain (drawn ++ ["import_graph" ++ "." ++ format.extension])
    (by simp [diagramPlaces])).put_file hcalls x.drawing.callGraph.toUTF8
  have hleads' := hleads.put hcalls (.file x.drawing.callGraph.toUTF8)
  have hwrite : Does (Action.change (·.writeText (a.diagramPath "call_graph" format) _)) t₂ () _ :=
    .change (hleads.writeText_join hcallsName hcalls x.drawing.callGraph)
  unfold Saved.illustrated
  generalize t₂.put (drawn ++ ["call_graph" ++ "." ++ format.extension])
    (.file x.drawing.callGraph.toUTF8) = w at himports hleads' hwrite ⊢
  apply Does.bind (.change hcreated)
  apply hwrite.bind
  cases x.drawing.importGraph with
  | some text =>
    exact Does.bind (.change (hleads'.writeText_join himportsName himports text)) (.pure _ _)
  | none =>
    have hlink := himports.ne_link
    have hthere : w.hasEntry (a.diagramPath "import_graph" format) = _ :=
      hleads'.hasEntry_join himportsName hlink
    apply (Does.get w).bind
    rcases himports with hnone | ⟨content, hfile⟩
    · rw [hthere, hnone]
      dsimp only
      rw [replaced, FileTree.drop_eq_self (by simp) hnone]
      exact .pure _ w
    · have hremove := (hleads'.removeFile_join himportsName hlink).2 ⟨⟨content, hfile⟩, rfl⟩
      rw [hthere, hfile]
      exact Does.bind (.change hremove) (.pure _ _)

/-- The trees that saving goes through: the output directory is there in the second one, and with the
documents put in it and the directory of the diagrams created it is the third one. -/
structure Saves (a : Artifacts) (format : Diagram.Format) (x : Saved) (place drawn : Place)
    (t t₁ t₂ u : FileTree) : Prop where
  created : t.createDirectories (.ofComponents a.directory.components) = .ok t₁
  leads : t₁.LeadsTo a.directory place
  plain : PlainAt (places format place drawn) t₁
  createdDiagrams : (x.documented place t₁).createDirectories a.diagramsDirectory = .ok t₂
  leadsDiagrams : t₂.LeadsTo a.diagramsDirectory drawn
  plainDiagrams : PlainAt (diagramPlaces format drawn) t₂
  result : u = x.illustrated format drawn t₂

namespace Saves

theorem of_leads (hleads : t.LeadsTo a.directory place)
    (hleadsDiagrams : t.LeadsTo a.diagramsDirectory drawn)
    (hplain : PlainAt (places format place drawn) t) :
    Saves a format x place drawn t t (x.documented place t)
      (x.illustrated format drawn (x.documented place t)) := by
  have hdocuments : PlainAt (documentPlaces place) t :=
    fun q hq => hplain q (List.mem_append_left _ hq)
  have hdiagrams : PlainAt (diagramPlaces format drawn) t :=
    fun q hq => hplain q (List.mem_append_right _ hq)
  have hleadsDiagrams' : (x.documented place t).LeadsTo a.diagramsDirectory drawn :=
    hleadsDiagrams.mono (Saved.keeps_documented hdocuments x)
      (Saved.sameApart_put_documents x place t).working
  refine ⟨?_, hleads, hplain, hleadsDiagrams'.createDirectories, hleadsDiagrams', ?_, rfl⟩
  · exact (FileTree.LeadsTo.ofComponents_iff.2 hleads).createDirectories
  · exact Saved.plainAt_documented hdocuments hdiagrams x

variable (h : Saves a format x place drawn t t₁ t₂ u)
include h

theorem plainAt_documents : PlainAt (documentPlaces place) t₁ :=
  fun q hq => h.plain q (List.mem_append_left _ hq)

theorem does_save : Does (a.save format x) t (a.written format x) u := by
  obtain ⟨hgraph, hcycles⟩ := Saved.plain_documents h.plainAt_documents
  have hleads := h.leads.put hgraph (.file x.graph.write.toUTF8)
  have hwriteGraph : Does (a.writeGraph x.graph) t a.graphPath
      (t₁.put (place ++ ["call_graph.json"]) (.file x.graph.write.toUTF8)) := by
    have hwrite := h.leads.writeText_join Pipeline.isName_callGraph hgraph x.graph.write
    unfold writeGraph
    rw [graphPath, writeDocument_join Pipeline.isName_callGraph]
    exact (Does.bind (.change h.created) (.change hwrite)).bind (.pure _ _)
  have hwriteCycles : Does (a.writeCycles x.cycles)
      (t₁.put (place ++ ["call_graph.json"]) (.file x.graph.write.toUTF8)) a.cyclesPath
      (x.documented place t₁) :=
    (does_writeDocument_join hleads Pipeline.isName_cycles (hcycles _) _).bind (.pure _ _)
  have hwriteDiagrams :=
    does_writeDiagrams_places h.createdDiagrams h.leadsDiagrams h.plainDiagrams x
  rw [h.result]
  exact hwriteGraph.bind (hwriteCycles.bind (hwriteDiagrams.bind (.pure _ _)))

/-- Other files in the places of the artifacts make no difference. -/
theorem other (hsame : SameApart (places format place drawn) t t')
    (hplain : PlainAt (places format place drawn) t') :
    ∃ t₁' t₂', Saves a format x place drawn t' t₁' t₂' u := by
  obtain ⟨t₁', hcreated, hsame₁, hkept₁⟩ := hsame.createDirectories h.created h.plain
  have hplain₁ := hkept₁ hplain
  obtain ⟨t₂', hcreatedDiagrams, hsame₂, hkept₂⟩ :=
    (Saved.sameApart_documented hsame₁).createDirectories h.createdDiagrams h.plainDiagrams
  have hdocuments : PlainAt (documentPlaces place) t₁' :=
    fun q hq => hplain₁ q (List.mem_append_left _ hq)
  have hdiagrams : PlainAt (diagramPlaces format drawn) t₁' :=
    fun q hq => hplain₁ q (List.mem_append_right _ hq)
  refine ⟨t₁', t₂', ⟨hcreated, ?_, hplain₁, hcreatedDiagrams, ?_, ?_, ?_⟩⟩
  · exact h.leads.mono (hsame₁.grown.keeps h.plain) hsame₁.working
  · exact h.leadsDiagrams.mono (hsame₂.grown.keeps h.plainDiagrams) hsame₂.working
  · exact hkept₂ (Saved.plainAt_documented hdocuments hdiagrams x)
  · rw [Saved.sameApart_illustrated hsame₂, h.result]

theorem keeps : t₁.Keeps u ∧ t₂.Keeps u := by
  have hdiagrams : t₂.Keeps u := by
    rw [h.result]
    exact (Saved.sameApart_put_diagrams x format drawn t₂).grown.keeps h.plainDiagrams
  have hcreated := (FileTree.grown_of_createDirectories h.createdDiagrams).1.keeps_of_nil
  exact ⟨((Saved.keeps_documented h.plainAt_documents x).trans hcreated).trans hdiagrams, hdiagrams⟩

theorem leads_result : u.LeadsTo a.directory place ∧ u.LeadsTo a.diagramsDirectory drawn := by
  obtain ⟨hkeeps, hkeepsDiagrams⟩ := h.keeps
  have hdiagrams : u.working = t₂.working := by
    rw [h.result]
    exact (Saved.sameApart_put_diagrams x format drawn t₂).working
  have hcreated : t₂.working = t₁.working :=
    (FileTree.grown_of_createDirectories h.createdDiagrams).1.working
  constructor
  · exact h.leads.mono hkeeps (hdiagrams.trans hcreated)
  · exact h.leadsDiagrams.mono hkeepsDiagrams hdiagrams

/-- The documents remain when the diagrams are put in their directory. -/
theorem entry?_result {q : Place} (hq : q ∈ documentPlaces place) {e : Entry}
    (hentry : entry? (x.documented place t₁) q = some e) : u.entry? q = some e := by
  have hnodup := List.nodup_append.1 (nodup_places format place drawn)
  have hout : q ∉ diagramPlaces format drawn := fun hmem => hnodup.2.2 q hq q hmem rfl
  have hcreated := (FileTree.grown_of_createDirectories h.createdDiagrams).1
  rw [h.result, (Saved.sameApart_put_diagrams x format drawn t₂).entry?_eq hout]
  exact hcreated.entry?_eq List.not_mem_nil hentry

theorem plain_result : PlainAt (places format place drawn) u := by
  intro q hq
  rcases List.mem_append.1 hq with hq | hq
  · have hplain := Saved.plainAt_documented h.plainAt_documents h.plainAt_documents x q hq
    have hentries := Saved.entry?_documented h.plainAt_documents x
    have hfile : ∃ content, entry? (x.documented place t₁) q = some (.file content) := by
      rcases List.mem_pair.1 hq with rfl | rfl
      · exact ⟨_, hentries.1⟩
      · exact ⟨_, hentries.2⟩
    obtain ⟨content, hfile⟩ := hfile
    exact .inr ⟨content, h.entry?_result hq hfile⟩
  · rw [h.result]
    exact Saved.plainAt_illustrated h.plainDiagrams x q hq

/-- Saving once more changes nothing. -/
theorem again : Saves a format x place drawn u u u u := by
  obtain ⟨hleads, hleadsDiagrams⟩ := h.leads_result
  have hentries := Saved.entry?_documented h.plainAt_documents x
  have hgraph := h.entry?_result List.mem_cons_self hentries.1
  have hcycles := h.entry?_result (List.mem_cons_of_mem _ List.mem_cons_self) hentries.2
  have hdocumented : x.documented place u = u := by
    rw [Saved.documented, FileTree.put_eq_self (by simp) hgraph,
      FileTree.put_eq_self (by simp) hcycles]
  have hillustrated : x.illustrated format drawn u = u := by
    rw [h.result, Saved.illustrated_illustrated]
  have hsaves := of_leads (x := x) hleads hleadsDiagrams h.plain_result
  rwa [hdocumented, hillustrated] at hsaves

theorem plain_before : PlainAt (places format place drawn) t :=
  fun q hq => (FileTree.grown_of_createDirectories h.created).1.isPlainAt (h.plain q hq)

/-- Apart from the artifacts, saving adds directories and nothing else. -/
theorem grown : Grown (places format place drawn) t u := by
  have hcreated := (FileTree.grown_of_createDirectories h.created).1
  have hcreatedDiagrams := (FileTree.grown_of_createDirectories h.createdDiagrams).1
  have hdocuments := (Saved.sameApart_put_documents x place t₁).grown
  have hdiagrams := (Saved.sameApart_put_diagrams x format drawn t₂).grown
  rw [← h.result] at hdiagrams
  have hbefore := (hcreated.mono (List.nil_subset _)).trans
    (hdocuments.mono (List.subset_append_left _ (diagramPlaces format drawn)))
  exact (hbefore.trans (hcreatedDiagrams.mono (List.nil_subset _))).trans
    (hdiagrams.mono (List.subset_append_right _ _))

end Saves

/-! ### The way of a run that succeeds -/

/-- Where a document has been written, there was a directory for it, and if there was no link in its
place, it has been put there. -/
theorem exists_put_of_writeDocument {p : Path} {name text : String} (hname : IsName name)
    (h : Does (writeDocument (p.join name) text) t () u) :
    ∃ t₁ place, t.createDirectories (.ofComponents p.components) = .ok t₁ ∧
      t₁.LeadsTo p place ∧ u.LeadsTo p place ∧
      ((∀ target, entry? t₁ (place ++ [name]) ≠ some (.link target)) →
        t₁.IsPlainAt (place ++ [name]) ∧
          u = t₁.put (place ++ [name]) (.file text.toUTF8)) := by
  rw [writeDocument_join hname] at h
  obtain ⟨_, t₁, hcreate, hwrite⟩ := h.exists_of_bind
  have hcreated := hcreate.of_change
  obtain ⟨-, place, hleads⟩ := FileTree.grown_of_createDirectories hcreated
  have hleads := FileTree.LeadsTo.ofComponents_iff.1 hleads
  obtain ⟨hkeeps, hworking⟩ := FileTree.keeps_of_writeText hwrite.of_change
  refine ⟨t₁, place, hcreated, hleads, hleads.mono hkeeps hworking, fun hlink => ?_⟩
  exact hleads.put_of_writeText hname hlink hwrite.of_change

/-- Where both documents have been written, there was a directory for them, and if there were no links
in their places, they have been put there. -/
theorem exists_documented {q q' : Path} (hgraph : Does (a.writeGraph x.graph) t q v)
    (hcycles : Does (a.writeCycles x.cycles) v q' u) :
    ∃ t₁ place, t.createDirectories (.ofComponents a.directory.components) = .ok t₁ ∧
      t₁.LeadsTo a.directory place ∧ u.LeadsTo a.directory place ∧
      ((∀ q ∈ documentPlaces place, ∀ target, entry? t₁ q ≠ some (.link target)) →
        PlainAt (documentPlaces place) t₁ ∧ u = x.documented place t₁) := by
  obtain ⟨_, _, hwriteGraph, hreturn⟩ := hgraph.exists_of_bind
  obtain ⟨-, rfl⟩ := hreturn.eq_of_pure
  obtain ⟨_, _, hwriteCycles, hreturn⟩ := hcycles.exists_of_bind
  obtain ⟨-, rfl⟩ := hreturn.eq_of_pure
  obtain ⟨t₁, place, hcreated, hleads, hleads', hput⟩ :=
    exists_put_of_writeDocument Pipeline.isName_callGraph hwriteGraph
  obtain ⟨v', place', hcreated', hagain, hleads'', hput'⟩ :=
    exists_put_of_writeDocument Pipeline.isName_cycles hwriteCycles
  -- the directory is there already when the second document is written
  rw [(FileTree.LeadsTo.ofComponents_iff.2 hleads').createDirectories] at hcreated'
  cases hcreated'
  obtain rfl := hagain.unique hleads'
  refine ⟨t₁, place', hcreated, hleads, hleads'', fun hlink => ?_⟩
  have hne : place' ++ ["cycles.json"] ≠ place' ++ ["call_graph.json"] := by simp
  obtain ⟨hfirst, rfl⟩ := hput (hlink _ (by simp [documentPlaces]))
  obtain ⟨hsecond, rfl⟩ := hput' fun target => by
    rw [FileTree.entry?_put hfirst.ne_nil, if_neg hne]
    exact hlink _ (by simp [documentPlaces]) target
  refine ⟨fun q hq => ?_, rfl⟩
  rcases List.mem_pair.1 hq with rfl | rfl
  · exact hfirst
  · exact hsecond.of_put hfirst hne

/-- A file is written, or removed if it is not to be there. -/
def Replaces (t u : FileTree) (p : Path) : Option String → Prop
  | some text => t.writeText p text = .ok u
  | none => t.hasEntry p = true ∧ t.removeFile p = .ok u ∨ t.hasEntry p = false ∧ u = t

theorem Replaces.unique {p p' : Path} {text : Option String} (h : Replaces t u p text)
    {q q' : Place} (hq : t.LeadsTo p' q) (hq' : u.LeadsTo p' q') : q = q' := by
  cases text with
  | some text =>
    obtain ⟨hkeeps, hworking⟩ := FileTree.keeps_of_writeText h
    exact (hq.mono hkeeps hworking).unique hq'
  | none =>
    rcases h with ⟨-, hremove⟩ | ⟨-, rfl⟩
    · obtain ⟨hkeeps, hworking⟩ := FileTree.keeps_of_removeFile hremove
      exact hq.unique (hq'.mono hkeeps hworking.symm)
    · exact hq.unique hq'

theorem Replaces.eq_of_join {p : Path} {name : String} {text : Option String}
    (h : Replaces t u (p.join name) text) (hleads : t.LeadsTo p place) (hname : IsName name)
    (hlink : ∀ target, t.entry? (place ++ [name]) ≠ some (.link target)) :
    t.IsPlainAt (place ++ [name]) ∧
      u = replaced t (place ++ [name]) text := by
  cases text with
  | some text => exact hleads.put_of_writeText hname hlink h
  | none =>
    rcases h with ⟨-, hremove⟩ | ⟨hmissing, rfl⟩
    · obtain ⟨⟨content, hfile⟩, rfl⟩ := (hleads.removeFile_join hname hlink).1 hremove
      exact ⟨.inr ⟨content, hfile⟩, rfl⟩
    · rw [hleads.hasEntry_join hname hlink, Option.isSome_eq_false_iff, Option.isNone_iff_eq_none]
        at hmissing
      exact ⟨.inl hmissing, (FileTree.drop_eq_self (by simp) hmissing).symm⟩

/-- The operations on files by which diagrams are written. -/
theorem steps_of_writeDiagrams {written : List Path} {d : Diagram.Drawing}
    (h : Does (a.writeDiagrams format d) t written u) :
    ∃ t₂ w, t.createDirectories a.diagramsDirectory = .ok t₂ ∧
      t₂.writeText (a.diagramPath "call_graph" format) d.callGraph = .ok w ∧
      Replaces w u (a.diagramPath "import_graph" format) d.importGraph := by
  obtain ⟨_, t₂, hcreate, hwrites⟩ := h.exists_of_bind
  obtain ⟨_, w, hwriteCalls, hlast⟩ := hwrites.exists_of_bind
  refine ⟨t₂, w, hcreate.of_change, hwriteCalls.of_change, ?_⟩
  cases hd : d.importGraph with
  | some text =>
    rw [hd] at hlast
    obtain ⟨_, v, hwriteImports, hreturn⟩ := hlast.exists_of_bind
    obtain ⟨-, rfl⟩ := hreturn.eq_of_pure
    exact hwriteImports.of_change
  | none =>
    rw [hd] at hlast
    obtain ⟨_, _, hget, hremove⟩ := hlast.exists_of_bind
    cases hget
    cases hthere : w.hasEntry (a.diagramPath "import_graph" format) with
    | true =>
      rw [hthere] at hremove
      obtain ⟨_, v, hremove, hreturn⟩ := hremove.exists_of_bind
      obtain ⟨-, rfl⟩ := hreturn.eq_of_pure
      exact .inl ⟨hthere, hremove.of_change⟩
    | false =>
      rw [hthere] at hremove
      exact .inr ⟨hthere, hremove.eq_of_pure.2⟩

/-- Where the diagrams have been written, there was a directory for them, and if there were no links in
their places, they have been put there. Wherever a path leads in the end, it led to no other place
before. -/
theorem exists_illustrated {written : List Path}
    (h : Does (a.writeDiagrams format x.drawing) t written u) :
    ∃ t₂ drawn, t.createDirectories a.diagramsDirectory = .ok t₂ ∧
      t₂.LeadsTo a.diagramsDirectory drawn ∧
      (∀ p q q', t₂.LeadsTo p q → u.LeadsTo p q' → q = q') ∧
      ((∀ q ∈ diagramPlaces format drawn, ∀ target, entry? t₂ q ≠ some (.link target)) →
        PlainAt (diagramPlaces format drawn) t₂ ∧ u = x.illustrated format drawn t₂) := by
  obtain ⟨hcallsName, himportsName⟩ := isName_diagram format
  obtain ⟨t₂, w, hcreated, hwrite, hlast⟩ := steps_of_writeDiagrams h
  obtain ⟨-, drawn, hleads⟩ := FileTree.grown_of_createDirectories hcreated
  obtain ⟨hkeeps, hworking⟩ := FileTree.keeps_of_writeText hwrite
  have hleads' := hleads.mono hkeeps hworking
  refine ⟨t₂, drawn, hcreated, hleads, ?_, fun hlink => ?_⟩
  · intro p q q' hp hp'
    exact hlast.unique (hp.mono hkeeps hworking) hp'
  · have hne : drawn ++ ["import_graph" ++ "." ++ format.extension] ≠
        drawn ++ ["call_graph" ++ "." ++ format.extension] := by
      cases format <;> simp [Diagram.Format.extension]
    obtain ⟨hcalls, rfl⟩ := hleads.put_of_writeText hcallsName (hlink _ (by simp [diagramPlaces]))
      hwrite
    obtain ⟨himports, rfl⟩ := hlast.eq_of_join hleads' himportsName fun target => by
      rw [FileTree.entry?_put hcalls.ne_nil, if_neg hne]
      exact hlink _ (by simp [diagramPlaces]) target
    refine ⟨fun q hq => ?_, rfl⟩
    rcases List.mem_pair.1 hq with rfl | rfl
    · exact hcalls
    · exact himports.of_put hcalls hne

/-- A run that succeeds saves as described, if there were no links in the places of the artifacts.
These places are in the directories to which the paths lead in the end. -/
theorem exists_saves {written : List Path} (h : Does (a.save format x) t written u) :
    ∃ place drawn, (∀ q, u.LeadsTo a.directory q → q = place) ∧
      (∀ q, u.LeadsTo a.diagramsDirectory q → q = drawn) ∧
      ((∀ q ∈ places format place drawn, ∀ target, t.entry? q ≠ some (.link target)) →
        ∃ t₁ t₂, Saves a format x place drawn t t₁ t₂ u) := by
  obtain ⟨_, _, hgraph, h⟩ := h.exists_of_bind
  obtain ⟨_, v, hcycles, h⟩ := h.exists_of_bind
  obtain ⟨_, _, hdiagrams, hreturn⟩ := h.exists_of_bind
  obtain ⟨-, rfl⟩ := hreturn.eq_of_pure
  obtain ⟨t₁, place, hcreated, hleads₁, hleads₂, hdocumented⟩ := exists_documented hgraph hcycles
  obtain ⟨t₂, drawn, hcreatedDiagrams, hleads₃, hunique, hillustrated⟩ :=
    exists_illustrated hdiagrams
  have hgrown := (FileTree.grown_of_createDirectories hcreated).1
  have hgrownDiagrams := (FileTree.grown_of_createDirectories hcreatedDiagrams).1
  have hleads₂' := hleads₂.mono hgrownDiagrams.keeps_of_nil hgrownDiagrams.working
  -- the directory of the documents is still there when the diagrams have been written
  refine ⟨place, drawn, fun q hq => (hunique _ _ _ hleads₂' hq).symm,
    fun q hq => (hunique _ _ _ hleads₃ hq).symm, fun hlink => ?_⟩
  have hlink₁ : ∀ q ∈ places format place drawn, ∀ target, entry? t₁ q ≠ some (.link target) :=
    fun q hq target => hgrown.ne_link (hlink q hq target)
  obtain ⟨hdocuments, rfl⟩ := hdocumented fun q hq => hlink₁ q (List.mem_append_left _ hq)
  -- the documents are not in the places of the diagrams
  have hsame : ∀ q ∈ diagramPlaces format drawn,
      entry? (x.documented place t₁) q = entry? t₁ q := by
    intro q hq
    have hnodup := List.nodup_append.1 (nodup_places format place drawn)
    exact (Saved.sameApart_put_documents x place t₁).entry?_eq fun hmem =>
      hnodup.2.2 q hmem q hq rfl
  obtain ⟨hplainDiagrams, hresult⟩ := hillustrated fun q hq target => by
    apply hgrownDiagrams.ne_link
    rw [hsame q hq]
    exact hlink₁ q (List.mem_append_right _ hq) target
  refine ⟨t₁, t₂, hcreated, hleads₁, fun q hq => ?_, hcreatedDiagrams, hleads₃, hplainDiagrams,
    hresult⟩
  rcases List.mem_append.1 hq with hq | hq
  · exact hdocuments q hq
  · have hbefore := hgrownDiagrams.isPlainAt (hplainDiagrams q hq)
    rwa [FileTree.IsPlainAt, hsame q hq] at hbefore

end Artifacts

end CallAtlas
