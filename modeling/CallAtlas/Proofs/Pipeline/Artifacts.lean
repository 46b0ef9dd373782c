import CallAtlas.Artifact
import CallAtlas.Proofs.Files.Operations
import CallAtlas.Proofs.Pipeline.Documents
/-!
# What stages do to an output directory

`Does x t a u` says that an action succeeds with a result and takes one tree to another, and
`Fails x t e u` that it fails instead. In a directory
where the names of the artifacts are free, writing them puts their files there and nothing else, and
reading a document gives back what was written.
-/

namespace CallAtlas

open CallAtlas.Path (IsName)

/-- The second part of a sequence is carried out if the first one succeeds, whatever the actions are
about. -/
theorem Action.run_bind {ε σ α β : Type} (x : ExceptT ε (StateM σ) α)
    (f : α → ExceptT ε (StateM σ) β) (s : σ) :
    (x >>= f).run s = match x.run s with
      | (.ok a, s') => (f a).run s'
      | (.error e, s') => (.error e, s') := by
  have hrun : (x >>= f).run s = ExceptT.bindCont f (x.run s).1 (x.run s).2 := rfl
  rw [hrun]
  obtain ⟨r, s'⟩ := x.run s
  cases r <;> rfl

/-- The action succeeds with a result and takes one tree to another. -/
def Does {α : Type} (x : Action α) (t : FileTree) (a : α) (u : FileTree) : Prop :=
  x.run t = (.ok a, u)

namespace Does

variable {α β : Type} {x : Action α} {a : α} {t u v : FileTree}

theorem pure (a : α) (t : FileTree) : Does (Pure.pure a) t a t := rfl

theorem run_bind {f : α → Action β} (hx : Does x t a u) : (x >>= f).run t = (f a).run u := by
  rw [Action.run_bind, hx]

theorem bind {f : α → Action β} {b : β} (hx : Does x t a u) (hf : Does (f a) u b v) :
    Does (x >>= f) t b v :=
  hx.run_bind.trans hf

/-- Where a sequence succeeds, each of its parts does. -/
theorem exists_of_bind {f : α → Action β} {b : β} (h : Does (x >>= f) t b v) :
    ∃ a u, Does x t a u ∧ Does (f a) u b v := by
  rw [Does, Action.run_bind] at h
  split at h
  · rename_i a u hx
    exact ⟨a, u, hx, h⟩
  · cases h

theorem eq_of_pure {b : α} (h : Does (Pure.pure a) t b u) : b = a ∧ u = t := by
  cases h
  exact ⟨rfl, rfl⟩

theorem get (t : FileTree) : Does MonadState.get t t t := rfl

theorem change {f : FileTree → Except Files.Fault FileTree} (h : f t = .ok u) :
    Does (Action.change f) t () u := by
  apply (get t).bind
  rw [h]
  rfl

theorem of_change {f : FileTree → Except Files.Fault FileTree}
    (h : Does (Action.change f) t () u) : f t = .ok u := by
  obtain ⟨_, _, hget, h⟩ := h.exists_of_bind
  cases hget
  cases hf : f t with
  | error fault =>
    rw [hf] at h
    cases h
  | ok w =>
    rw [hf] at h
    cases h
    rfl

theorem ask {f : FileTree → Except Files.Fault α} (h : f t = .ok a) :
    Does (Action.ask f) t a t := by
  apply (get t).bind
  rw [h]
  rfl

theorem of_ask {f : FileTree → Except Files.Fault α} (h : Does (Action.ask f) t a u) :
    f t = .ok a := by
  obtain ⟨_, _, hget, h⟩ := h.exists_of_bind
  cases hget
  cases hf : f t with
  | error fault =>
    rw [hf] at h
    cases h
  | ok b =>
    rw [hf] at h
    exact congrArg Except.ok h.eq_of_pure.1.symm

end Does

/-- The action fails and takes one tree to another. -/
def Fails {α : Type} (x : Action α) (t : FileTree) (e : Failure) (u : FileTree) : Prop :=
  x.run t = (.error e, u)

section Failing
variable {α β : Type} {x : Action α} {a : α} {f : α → Action β} {t u : FileTree} {e e' : Failure}

theorem not_fails_pure : ¬Fails (pure a : Action α) t e u := fun h => nomatch h

theorem fails_throw_iff : Fails (throw e' : Action α) t e u ↔ e = e' ∧ u = t := by
  constructor
  · intro h
    cases h
    exact ⟨rfl, rfl⟩
  · rintro ⟨rfl, rfl⟩
    rfl

/-- Where a sequence fails, one of its parts does. -/
theorem fails_bind_iff :
    Fails (x >>= f) t e u ↔ Fails x t e u ∨ ∃ a v, Does x t a v ∧ Fails (f a) v e u := by
  constructor
  · intro h
    rw [Fails, Action.run_bind] at h
    split at h
    · rename_i a v hx
      exact .inr ⟨a, v, hx, h⟩
    · rename_i e' v hx
      cases h
      exact .inl hx
  · rintro (hx | ⟨a, v, hx, h⟩)
    · rw [Fails, Action.run_bind, hx]
    · exact hx.run_bind.trans h

end Failing

namespace Artifacts

open OrderedMap (lookup)

variable {t : FileTree} {p : Path} {place : Place} {name : String}
variable {content : List (Place × Entry)}

/-- A document is written once the directory above it is there. -/
theorem writeDocument_join (hname : IsName name) (p : Path) (text : String) :
    writeDocument (p.join name) text =
      (Action.change (·.createDirectories (.ofComponents p.components)) >>= fun _ =>
        Action.change (·.writeText (p.join name) text)) := by
  rw [writeDocument, Path.parent?_join hname]
  dsimp only
  split
  · rfl
  · rename_i hempty
    have hnone : Action.change (·.createDirectories (.ofComponents p.components)) = pure () := by
      funext t
      exact Does.change (FileTree.createDirectories_of_isEmpty (by simpa using hempty) t)
    rw [hnone, pure_bind]

/-- In a directory a document is put in place of what may be there under its name. -/
theorem does_writeDocument_join (h : t.LeadsTo p place) (hname : IsName name)
    (hplain : t.IsPlainAt (place ++ [name])) (text : String) :
    Does (writeDocument (p.join name) text) t ()
      (t.put (place ++ [name]) (.file text.toUTF8)) := by
  rw [writeDocument_join hname]
  apply Does.bind (.change (FileTree.LeadsTo.ofComponents_iff.2 h).createDirectories)
  exact .change (h.writeText_join hname hplain text)

section Documents
variable (h : t.Holds p place content) (hname : IsName name)
include h hname

theorem does_writeDocument (hfree : lookup [name] content = none) (text : String) :
    ∃ u, Does (writeDocument (p.join name) text) t () u ∧
      u.Holds p place (([name], .file text.toUTF8) :: content) := by
  have hput := h.put (List.cons_ne_nil name []) hfree (.file text.toUTF8)
  rw [← h.entry?_eq [name] (List.cons_ne_nil name [])] at hfree
  exact ⟨_, does_writeDocument_join h.leads hname (.inl hfree) text, hput⟩

theorem hasEntry_file {bytes : ByteArray} (hentry : lookup [name] content = some (.file bytes)) :
    t.hasEntry (p.join name) = true := by
  rw [← h.entry?_eq [name] (List.cons_ne_nil name [])] at hentry
  rw [h.leads.hasEntry_join hname (by simp [hentry]), hentry]
  rfl

theorem does_readDocument {text : String}
    (hentry : lookup [name] content = some (.file text.toUTF8)) (producer : Producer) :
    Does (readDocument (p.join name) producer) t text t := by
  have hthere := hasEntry_file h hname hentry
  rw [← h.entry?_eq [name] (List.cons_ne_nil name [])] at hentry
  apply (Does.get t).bind
  rw [if_pos hthere]
  exact .ask (h.leads.readText_join hname hentry)

theorem does_readGraph {d : GraphDocument}
    (hentry : lookup [name] content = some (.file d.write.toUTF8)) :
    Does (readGraph (p.join name)) t d t := by
  apply (does_readDocument h hname hentry .graph).bind
  rw [GraphDocument.read_write]
  exact .pure d t

theorem does_readCycles {cs : List (List String)}
    (hentry : lookup [name] content = some (.file (CycleList.write cs).toUTF8))
    (hcs : CycleList.flaw? cs = none) : Does (readCycles (p.join name)) t cs t := by
  apply (does_readDocument h hname hentry .cycles).bind
  rw [CycleList.read_write]
  dsimp only
  rw [hcs]
  exact .pure cs t

end Documents

/-! ### Diagrams -/

/-- What diagrams leave behind in an output directory. -/
def diagramFiles (format : Diagram.Format) (d : Diagram.Drawing) : List (Place × Entry) :=
  let calls : List (Place × Entry) :=
    [(["diagrams", "call_graph" ++ "." ++ format.extension], .file d.callGraph.toUTF8),
      (["diagrams"], .directory)]
  match d.importGraph with
  | some text =>
    (["diagrams", "import_graph" ++ "." ++ format.extension], .file text.toUTF8) :: calls
  | none => calls

theorem isName_diagram (format : Diagram.Format) :
    IsName ("call_graph" ++ "." ++ format.extension) ∧
      IsName ("import_graph" ++ "." ++ format.extension) := by
  cases format <;> decide

section Within
variable {directory : String} (h : t.Holds p place content) (hdirectory : IsName directory)
variable (hentry : lookup [directory] content = some .directory) (hname : IsName name)
variable (hfree : lookup [directory, name] content = none)
include h hfree

theorem entry?_within : t.entry? (place ++ [directory] ++ [name]) = none := by
  rw [List.append_assoc]
  exact (h.entry?_eq [directory, name] (List.cons_ne_nil directory [name])).trans hfree

include hdirectory hentry hname

theorem does_writeText_within (text : String) :
    ∃ u, Does (Action.change (·.writeText ((p.join directory).join name) text)) t () u ∧
      u.Holds p place (([directory, name], .file text.toUTF8) :: content) := by
  have hput := h.put (List.cons_ne_nil directory [name]) hfree (.file text.toUTF8)
  have hleads := h.leads_join hdirectory hentry
  have habsent := entry?_within h hfree
  refine ⟨_, .change (hleads.writeText_join hname (.inl habsent) text), ?_⟩
  rwa [List.append_assoc]

theorem hasEntry_within : t.hasEntry ((p.join directory).join name) = false := by
  have habsent := entry?_within h hfree
  rw [(h.leads_join hdirectory hentry).hasEntry_join hname, habsent]
  · rfl
  · intro target htarget
    rw [habsent] at htarget
    cases htarget

end Within

theorem does_writeDiagrams {a : Artifacts} (h : t.Holds a.directory place content)
    (hfree : ∀ rest, lookup ("diagrams" :: rest) content = none) (format : Diagram.Format)
    (d : Diagram.Drawing) :
    ∃ paths u, Does (a.writeDiagrams format d) t paths u ∧
      u.Holds a.directory place (diagramFiles format d ++ content) := by
  have hdiagrams : IsName "diagrams" := by decide
  obtain ⟨hcalls, himports⟩ := isName_diagram format
  have habsent : t.entry? (place ++ ["diagrams"]) = none :=
    (h.entry?_eq ["diagrams"] (List.cons_ne_nil _ _)).trans (hfree [])
  have hcreate : Does (Action.change (·.createDirectories a.diagramsDirectory)) t () _ :=
    .change (h.leads.createDirectories_join hdiagrams habsent)
  have h₁ := h.put (List.cons_ne_nil _ _) (hfree []) .directory
  obtain ⟨t₂, hwrite, h₂⟩ := does_writeText_within h₁ hdiagrams (by simp [lookup]) hcalls
    (by simp [lookup, hfree]) d.callGraph
  have hentry : lookup ["diagrams"] ((["diagrams", "call_graph" ++ "." ++ format.extension],
      Entry.file d.callGraph.toUTF8) :: (["diagrams"], .directory) :: content) =
      some .directory := by simp [lookup]
  have himportsFree : lookup ["diagrams", "import_graph" ++ "." ++ format.extension]
      ((["diagrams", "call_graph" ++ "." ++ format.extension],
        Entry.file d.callGraph.toUTF8) :: (["diagrams"], .directory) :: content) = none := by
    simp [lookup, hfree]
  cases hd : d.importGraph with
  | none =>
    have habsent : t₂.hasEntry (a.diagramPath "import_graph" format) = false :=
      hasEntry_within h₂ hdiagrams hentry himports himportsFree
    refine ⟨[a.diagramPath "call_graph" format], t₂, ?_, ?_⟩
    · apply hcreate.bind
      apply hwrite.bind
      rw [hd]
      apply (Does.get t₂).bind
      rw [habsent]
      exact .pure _ t₂
    · simpa [diagramFiles, hd] using h₂
  | some text =>
    obtain ⟨t₃, hwriteImports, h₃⟩ := does_writeText_within h₂ hdiagrams hentry himports
      himportsFree text
    refine ⟨[a.diagramPath "call_graph" format, a.diagramPath "import_graph" format], t₃, ?_, ?_⟩
    · apply hcreate.bind
      apply hwrite.bind
      rw [hd]
      exact hwriteImports.bind (.pure _ t₃)
    · simpa [diagramFiles, hd] using h₃

end Artifacts

end CallAtlas
