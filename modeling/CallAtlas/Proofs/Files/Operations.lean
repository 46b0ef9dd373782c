import CallAtlas.Proofs.Files.Resolution
/-!
# Operations on a name in a directory

Where a path leads to a directory, a file can be written under a name that is free there, and read
back, and a directory can be created. Creating the directory itself changes nothing. None of this
closes a way to another directory.
-/

namespace CallAtlas.FileTree

open CallAtlas.Path (isStep IsName)

variable {t u : FileTree} {p : Path} {place : Place} {name : String}

/-- Where the way of a path begins. -/
def start (t : FileTree) (p : Path) : Place := if isRooted p.text then [] else t.working

/-- A path leads to a directory. The empty path leads to the working directory. -/
def LeadsTo (t : FileTree) (p : Path) (place : Place) : Prop :=
  ∃ left, Walks t maxLinks (t.start p) p.segments left place

theorem leadsTo_of_resolve {follow : Bool} (h : t.resolve follow p = .ok (place, some .directory)) :
    t.LeadsTo p place := by
  unfold resolve at h
  split at h
  · cases h
  · exact Walks.of_resolveFrom h

theorem leadsTo_empty (t : FileTree) : t.LeadsTo ⟨""⟩ t.working :=
  ⟨maxLinks, .stay rfl .done⟩

theorem resolve_of_ne_empty (h : p.text ≠ "") (follow : Bool) :
    t.resolve follow p = t.resolveFrom follow maxLinks (t.start p) p.segments :=
  if_neg (by simpa using h)

theorem entry?_put {q : Place} (h : q ≠ []) (t : FileTree) (e : Entry) (x : Place) :
    entry? (t.put q e) x = if x = q then some e else t.entry? x := by
  by_cases hx : x = []
  · subst hx
    rw [if_neg h.symm]
    rfl
  · have hlisted : ∀ w : FileTree, w.entry? x = w.entries.get? x := by
      intro w
      exact if_neg (by simpa using hx)
    rw [hlisted, hlisted, put, OrderedMap.get?_insert]

theorem fromUTF8?_toUTF8 (text : String) : String.fromUTF8? text.toUTF8 = some text :=
  dif_pos text.isValidUTF8

theorem IsPlainAt.ne_nil {q : Place} (h : t.IsPlainAt q) : q ≠ [] := by
  rintro rfl
  rcases h with h | ⟨content, h⟩ <;> cases h

theorem IsPlainAt.ne_link {q : Place} (h : t.IsPlainAt q) (target : String) :
    t.entry? q ≠ some (.link target) := by
  rcases h with h | ⟨content, h⟩ <;> simp [h]

theorem IsPlainAt.ne_directory {q : Place} (h : t.IsPlainAt q) : t.entry? q ≠ some .directory := by
  rcases h with h | ⟨content, h⟩ <;> simp [h]

/-- What takes the place of a file closes no way. -/
theorem IsPlainAt.keeps_put {q : Place} (h : t.IsPlainAt q) (e : Entry) : t.Keeps (t.put q e) := by
  constructor
  · intro x hx
    rw [entry?_put h.ne_nil, if_neg, hx]
    rintro rfl
    exact h.ne_directory hx
  · intro x target hx
    rw [entry?_put h.ne_nil, if_neg, hx]
    rintro rfl
    exact h.ne_link target hx

/-- An empty path stands for a directory that is there. -/
theorem createDirectories_of_isEmpty (h : p.text.isEmpty = true) (t : FileTree) :
    t.createDirectories p = .ok t := by
  rw [createDirectories, createWithin, if_pos h]

namespace LeadsTo

theorem mono (h : t.LeadsTo p place) (hkept : t.Keeps u) (hworking : u.working = t.working) :
    u.LeadsTo p place := by
  obtain ⟨left, hwalks⟩ := h
  rw [← show u.start p = t.start p by rw [start, start, hworking]] at hwalks
  exact ⟨left, hwalks.mono hkept⟩

theorem put (h : t.LeadsTo p place) {q : Place} (hplain : t.IsPlainAt q) (e : Entry) :
    (t.put q e).LeadsTo p place :=
  h.mono (hplain.keeps_put e) rfl

theorem resolve_join (h : t.LeadsTo p place) (hname : IsName name)
    (hlink : ∀ target, t.entry? (place ++ [name]) ≠ some (.link target)) (follow : Bool) :
    t.resolve follow (p.join name) = .ok (place ++ [name], t.entry? (place ++ [name])) := by
  obtain ⟨left, hwalks⟩ := h
  obtain ⟨before, hsegments, hsteps, -⟩ := Path.exists_segments_join (p := p) hname
  have hstart : t.start (p.join name) = t.start p :=
    congrArg (if · then [] else t.working) (Path.isAbsolute_join hname)
  rw [resolve_of_ne_empty (Path.text_join_ne_empty hname), hsegments, hstart,
    (hwalks.of_filter_eq hsteps).resolveFrom_append follow [name]
      (.inr (List.cons_ne_nil name []))]
  exact resolveFrom_last hname.isStep hname.ne_parent follow hlink left

theorem join (h : t.LeadsTo p place) (hname : IsName name)
    (hentry : t.entry? (place ++ [name]) = some .directory) :
    t.LeadsTo (p.join name) (place ++ [name]) := by
  have hresolve := h.resolve_join hname (by simp [hentry]) true
  rw [hentry] at hresolve
  exact leadsTo_of_resolve hresolve

theorem ofComponents_iff : t.LeadsTo (.ofComponents p.components) place ↔ t.LeadsTo p place := by
  obtain ⟨hsteps, habsolute⟩ := Path.ofComponents_components p
  have hstart : t.start (.ofComponents p.components) = t.start p :=
    congrArg (if · then [] else t.working) habsolute
  rw [LeadsTo, LeadsTo, hstart]
  constructor
  · rintro ⟨left, hwalks⟩
    exact ⟨left, hwalks.of_filter_eq hsteps.symm⟩
  · rintro ⟨left, hwalks⟩
    exact ⟨left, hwalks.of_filter_eq hsteps⟩

theorem unique {place' : Place} (h : t.LeadsTo p place) (h' : t.LeadsTo p place') :
    place = place' := by
  obtain ⟨left, hwalks⟩ := h
  obtain ⟨left', hwalks'⟩ := h'
  have hresolve := hwalks.resolveFrom_append true [] (.inl rfl)
  rw [hwalks'.resolveFrom_append true [] (.inl rfl), resolveFrom, resolveFrom] at hresolve
  exact (Prod.mk.inj (Except.ok.inj hresolve)).1.symm

theorem hasDirectory (h : t.LeadsTo p place) (hne : p.text ≠ "") : t.hasDirectory p = true := by
  obtain ⟨left, hwalks⟩ := h
  have hresolve := hwalks.resolveFrom_append true [] (.inl rfl)
  rw [List.append_nil, ← resolve_of_ne_empty hne, resolveFrom] at hresolve
  simp [FileTree.hasDirectory, find?, hresolve]

theorem createDirectories (h : t.LeadsTo p place) : t.createDirectories p = .ok t := by
  by_cases hempty : p.text = ""
  · exact createDirectories_of_isEmpty (by simpa using hempty) t
  · rw [FileTree.createDirectories, createWithin]
    have hthere := h.hasDirectory hempty
    obtain ⟨left, hwalks⟩ := h
    obtain ⟨place', e, hresolve⟩ := hwalks.exists_resolveFrom false
    rw [← resolve_of_ne_empty hempty] at hresolve
    have hexists : t.createDirectory p = .error .exists := by
      rw [createDirectory, hresolve]
    rw [if_neg (by simpa using hempty), hexists]
    exact if_pos hthere

theorem writeText_join (h : t.LeadsTo p place) (hname : IsName name)
    (hplain : t.IsPlainAt (place ++ [name])) (text : String) :
    t.writeText (p.join name) text = .ok (t.put (place ++ [name]) (.file text.toUTF8)) := by
  have hresolve := h.resolve_join hname (hplain.ne_link) true
  have hwritten := (h.put hplain (.file text.toUTF8)).resolve_join hname (by simp [entry?_put]) true
  rw [entry?_put hplain.ne_nil, if_pos rfl] at hwritten
  have hfile : (t.put (place ++ [name]) (.file text.toUTF8)).hasFile (p.join name) = true := by
    rw [hasFile, find?, hwritten]
  rw [writeText, writeBytes, hresolve]
  rcases hplain with hentry | ⟨content, hentry⟩ <;> simp only [hentry, hfile, if_true]

theorem readText_join (h : t.LeadsTo p place) (hname : IsName name) {text : String}
    (hentry : t.entry? (place ++ [name]) = some (.file text.toUTF8)) :
    t.readText (p.join name) = .ok text := by
  have hresolve := h.resolve_join hname (by simp [hentry]) true
  rw [hentry] at hresolve
  simp only [readText, readBytes, hresolve, fromUTF8?_toUTF8]

theorem hasEntry_join (h : t.LeadsTo p place) (hname : IsName name)
    (hlink : ∀ target, t.entry? (place ++ [name]) ≠ some (.link target)) :
    t.hasEntry (p.join name) = (t.entry? (place ++ [name])).isSome := by
  rw [hasEntry, find?, h.resolve_join hname hlink true]

theorem createDirectories_join (h : t.LeadsTo p place) (hname : IsName name)
    (hfree : t.entry? (place ++ [name]) = none) :
    t.createDirectories (p.join name) = .ok (t.put (place ++ [name]) .directory) := by
  have hresolve := h.resolve_join hname (by simp [hfree]) false
  rw [hfree] at hresolve
  have hne := Path.text_join_ne_empty (p := p) hname
  rw [FileTree.createDirectories, createWithin, if_neg (by simpa using hne), createDirectory,
    hresolve]

end LeadsTo

theorem hasFile_of_readText {text : String} (h : t.readText p = .ok text) :
    t.hasFile p = true := by
  rw [readText, readBytes] at h
  split at h
  · rename_i content hbytes
    split at hbytes
    · rename_i q content hresolve
      rw [hasFile, find?, hresolve]
    all_goals cases hbytes
  · cases h

theorem hasEntry_of_hasFile (h : t.hasFile p = true) : t.hasEntry p = true := by
  rw [hasFile] at h
  split at h
  · rename_i content hfind
    rw [hasEntry, hfind, Option.isSome_some]
  · cases h

/-- A name on its own leads to a file in the working directory. -/
theorem readText_working (hname : IsName name) {text : String}
    (hentry : t.entry? (t.working ++ [name]) = some (.file text.toUTF8)) :
    t.readText ⟨name⟩ = .ok text := by
  have hread := t.leadsTo_empty.readText_join hname hentry
  have hjoin : (Path.mk "").join name = ⟨name⟩ := by simp [Path.join]
  rwa [hjoin] at hread

/-- A path leads to a directory below which there is exactly what is listed, by the names on the way
to it. -/
structure Holds (t : FileTree) (p : Path) (place : Place) (content : List (Place × Entry)) :
    Prop where
  leads : t.LeadsTo p place
  entry?_eq : ∀ q ≠ [], t.entry? (place ++ q) = OrderedMap.lookup q content

namespace Holds

variable {content : List (Place × Entry)} (h : t.Holds p place content)
include h

theorem put {q : Place} (hne : q ≠ []) (hfree : OrderedMap.lookup q content = none) (e : Entry) :
    (t.put (place ++ q) e).Holds p place ((q, e) :: content) := by
  have hplace : place ++ q ≠ [] := by simp [hne]
  constructor
  · apply h.leads.put
    left
    rw [h.entry?_eq q hne, hfree]
  · intro x hx
    rw [entry?_put hplace, h.entry?_eq x hx]
    by_cases heq : x = q
    · simp [heq, OrderedMap.lookup]
    · simp [heq, OrderedMap.lookup]

theorem leads_join (hname : IsName name)
    (hentry : OrderedMap.lookup [name] content = some .directory) :
    t.LeadsTo (p.join name) (place ++ [name]) :=
  h.leads.join hname ((h.entry?_eq [name] (List.cons_ne_nil name [])).trans hentry)

end Holds

end CallAtlas.FileTree
