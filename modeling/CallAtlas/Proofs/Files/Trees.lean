import CallAtlas.Proofs.Files.Growth
import Mathlib.Data.List.Induction
/-!
# Names in trees

In a tree as an operating system keeps it, every entry has a name and lies in a directory. Then an
entry is no deeper than there are entries, an absolute path leads to each directory, and where there
are no links, what a path leads to has the name that stands last in it.
-/

namespace CallAtlas.FileTree

open CallAtlas.Path (isStep IsName)

variable {t w : FileTree} {A : List Place} {p : Path} {place q : Place} {name : String} {e : Entry}
variable {links left : Nat} {goal : Place} {segments names rest : List String}
variable {content : ByteArray}

/-- Every entry has a name and lies in a directory, and the working directory is one. -/
structure IsTree (t : FileTree) : Prop where
  working : t.entry? t.working = some .directory
  isName : ∀ e ∈ t.entries.entries, ∀ name ∈ e.1.getLast?, IsName name
  within : ∀ e ∈ t.entries.entries, t.entry? e.1.dropLast = some .directory

/-- There are no links in a tree. -/
def IsLinkless (t : FileTree) : Prop := ∀ q target, t.entry? q ≠ some (.link target)

theorem entry?_concat (t : FileTree) (q : Place) (name : String) :
    t.entry? (q ++ [name]) = t.entries.get? (q ++ [name]) :=
  (get?_entries (by simp) t).symm

namespace IsTree

section Entries
variable (h : t.IsTree)
include h

theorem isName_of_entry? (hentry : t.entry? (q ++ [name]) = some e) : IsName name := by
  rw [entry?_concat] at hentry
  exact h.isName _ (OrderedMap.mem_entries_iff.2 hentry) name (by simp)

theorem directory_of_entry? (hentry : t.entry? (q ++ [name]) = some e) :
    t.entry? q = some .directory := by
  rw [entry?_concat] at hentry
  have hwithin := h.within _ (OrderedMap.mem_entries_iff.2 hentry)
  rwa [List.dropLast_concat] at hwithin

theorem directory_of_append (hne : rest ≠ []) (hentry : t.entry? (q ++ rest) = some e) :
    t.entry? q = some .directory := by
  induction rest using List.reverseRecOn generalizing e with
  | nil => exact absurd rfl hne
  | append_singleton rest name ih =>
    rw [← List.append_assoc] at hentry
    have hdirectory := h.directory_of_entry? hentry
    by_cases hrest : rest = []
    · rwa [hrest, List.append_nil] at hdirectory
    · exact ih hrest hdirectory

theorem isName_of_mem (hentry : t.entry? q = some e) (hname : name ∈ q) : IsName name := by
  obtain ⟨before, behind, rfl⟩ := List.append_of_mem hname
  by_cases hbehind : behind = []
  · subst hbehind
    exact h.isName_of_entry? hentry
  · rw [← List.singleton_append, ← List.append_assoc] at hentry
    exact h.isName_of_entry? (h.directory_of_append hbehind hentry)

theorem directory_of_walks (hwalks : Walks t links place segments left goal)
    (hplace : t.entry? place = some .directory) : t.entry? goal = some .directory := by
  induction hwalks with
  | done => exact hplace
  | stay _ _ ih => exact ih hplace
  | @up links left place goal rest _ ih =>
    apply ih
    obtain rfl | ⟨before, name, rfl⟩ := List.eq_nil_or_concat place
    · rfl
    · rw [List.concat_eq_append] at hplace ⊢
      rw [List.dropLast_concat]
      exact h.directory_of_entry? hplace
  | down _ _ hentry _ ih => exact ih hentry
  | follow _ _ _ _ _ ih =>
    apply ih
    split
    · rfl
    · exact hplace

theorem directory_of_leadsTo (hleads : t.LeadsTo p q) : t.entry? q = some .directory := by
  obtain ⟨left, hwalks⟩ := hleads
  apply h.directory_of_walks hwalks
  unfold start
  split
  · rfl
  · exact h.working

theorem directory_take (hentry : t.entry? q = some .directory) (n : Nat) :
    t.entry? (q.take n) = some .directory := by
  by_cases hrest : q.drop n = []
  · rwa [← List.take_append_drop n q, hrest, List.append_nil] at hentry
  · rw [← List.take_append_drop n q] at hentry
    exact h.directory_of_append hrest hentry

end Entries

/-- A directory is no deeper than there are entries in a tree that keeps it. -/
theorem length_le_size (h : t.IsTree) (hkeeps : t.Keeps w)
    (hentry : t.entry? q = some .directory) : q.length ≤ w.entries.size := by
  -- every directory on the way is an entry of its own
  have hsub : (List.range q.length).map (fun n => q.take (n + 1)) ⊆ w.entries.keys := by
    intro x hx
    obtain ⟨n, hn, rfl⟩ := List.mem_map.1 hx
    have hne : q.take (n + 1) ≠ [] := by
      have hn := List.mem_range.1 hn
      simp only [ne_eq, List.take_eq_nil_iff, not_or]
      exact ⟨Nat.succ_ne_zero n, List.ne_nil_of_length_pos (Nat.zero_lt_of_lt hn)⟩
    have hdirectory := hkeeps.directory _ (h.directory_take hentry (n + 1))
    rw [← get?_entries hne] at hdirectory
    exact OrderedMap.mem_keys_iff.2 ⟨_, hdirectory⟩
  have hnodup : ((List.range q.length).map fun n => q.take (n + 1)).Nodup := by
    apply List.Nodup.map_on _ List.nodup_range
    intro m hm n hn heq
    have hlength := congrArg List.length heq
    rw [List.length_take, List.length_take] at hlength
    have hm := List.mem_range.1 hm
    have hn := List.mem_range.1 hn
    omega
  have hle := (List.subperm_of_subset hnodup hsub).length_le
  simpa [OrderedMap.keys, OrderedMap.size] using hle

theorem walks_names (h : t.IsTree) (links : Nat)
    (hentry : t.entry? (place ++ names) = some .directory) :
    Walks t links place names links (place ++ names) := by
  induction names generalizing place with
  | nil =>
    rw [List.append_nil]
    exact .done
  | cons name rest ih =>
    have hname : IsName name := h.isName_of_mem hentry (by simp)
    rw [← List.singleton_append, ← List.append_assoc] at hentry ⊢
    have hdirectory : t.entry? (place ++ [name]) = some .directory := by
      have htake := h.directory_take hentry (place ++ [name]).length
      rwa [List.take_left] at htake
    exact .down hname.isStep hname.ne_parent hdirectory (ih hentry)

theorem leadsTo_absolute (h : t.IsTree) (hentry : t.entry? q = some .directory) :
    t.LeadsTo ⟨absolute q⟩ q := by
  have htext : (absolute q).toList = [] ++ '/' :: ("/".intercalate q).toList := by
    simp [absolute]
  have hstart : t.start ⟨absolute q⟩ = [] := by
    rw [start, isRooted, htext]
    rfl
  have hsegments : (Path.mk (absolute q)).segments = "" :: Path.segmentsOf ("/".intercalate q) := by
    rw [Path.segments, Path.segmentsOf_of_append [] htext, String.ofList_toList]
    rfl
  refine ⟨maxLinks, ?_⟩
  rw [hstart, hsegments]
  apply Walks.stay rfl
  by_cases hempty : q = []
  · rw [hempty]
    exact .stay rfl .done
  · rw [Path.segmentsOf_intercalate (fun name hname => (h.isName_of_mem hentry hname).no_separator)
      hempty]
    exact h.walks_names maxLinks hentry

end IsTree

/-! ### Names at the end of paths -/

/-- Where a way goes on, it has led to a directory so far. -/
theorem exists_walks_of_resolveFrom {follow : Bool} {r : Place × Option Entry}
    {before : List String} (hstep : isStep name = true) (hsegments : segments = before ++ [name])
    (h : t.resolveFrom follow links place segments = .ok r) :
    ∃ left mid, Walks t links place before left mid := by
  revert before
  fun_induction resolveFrom t follow links place segments with
  | case1 => simp
  | case2 links place rest ih
  | case3 links place rest ih =>
    intro before hsegments
    rcases List.cons_eq_append_iff.1 hsegments with ⟨rfl, -⟩ | ⟨before, rfl, hrest⟩
    · exact ⟨links, place, .done⟩
    · obtain ⟨left, mid, hwalks⟩ := ih h hrest
      exact ⟨left, mid, .stay rfl hwalks⟩
  | case4 links place rest ih =>
    intro before hsegments
    rcases List.cons_eq_append_iff.1 hsegments with ⟨rfl, -⟩ | ⟨before, rfl, hrest⟩
    · exact ⟨links, place, .done⟩
    · obtain ⟨left, mid, hwalks⟩ := ih h hrest
      exact ⟨left, mid, .up hwalks⟩
  | case5 links place segment rest hempty hdot hparent here hentry hends
  | case8 links place segment rest hempty hdot hparent here content hentry hends =>
    intro before hsegments
    rcases List.cons_eq_append_iff.1 hsegments with ⟨rfl, -⟩ | ⟨before, rfl, rfl⟩
    · exact ⟨links, place, .done⟩
    · simp [(ne_of_isStep hstep).1] at hends
  | case7 links place segment rest hempty hdot hparent here hentry ih =>
    intro before hsegments
    rcases List.cons_eq_append_iff.1 hsegments with ⟨rfl, -⟩ | ⟨before, rfl, hrest⟩
    · exact ⟨links, place, .done⟩
    · obtain ⟨left, mid, hwalks⟩ := ih h hrest
      exact ⟨left, mid, .down (isStep_of_ne hempty hdot) hparent hentry hwalks⟩
  | case10 links place segment rest hempty hdot hparent here target hentry hends =>
    intro before hsegments
    rcases List.cons_eq_append_iff.1 hsegments with ⟨rfl, -⟩ | ⟨before, rfl, rfl⟩
    · exact ⟨links, place, .done⟩
    · simp at hends
  | case13 place segment rest hempty hdot hparent here target hentry hgoes links htarget ih =>
    intro before hsegments
    rcases List.cons_eq_append_iff.1 hsegments with ⟨rfl, -⟩ | ⟨before, rfl, rfl⟩
    · exact ⟨_, place, .done⟩
    · obtain ⟨left, mid, hwalks⟩ := ih h (List.append_assoc _ _ _).symm
      exact ⟨left, mid, .follow (isStep_of_ne hempty hdot) hparent hentry (by simpa using htarget)
        hwalks⟩
  | _ => simp at h

theorem exists_leadsTo_of_resolve_join {follow : Bool} {r : Place × Option Entry}
    (hname : IsName name) (h : t.resolve follow (p.join name) = .ok r) :
    ∃ mid, t.LeadsTo p mid := by
  obtain ⟨before, hsegments, hsteps, -⟩ := Path.exists_segments_join (p := p) hname
  have hstart : t.start (p.join name) = t.start p :=
    congrArg (if · then [] else t.working) (Path.isAbsolute_join hname)
  obtain ⟨left, mid, hwalks⟩ :=
    exists_walks_of_resolveFrom hname.isStep hsegments (resolveFrom_of_resolve h)
  rw [hstart] at hwalks
  exact ⟨mid, left, hwalks.of_filter_eq hsteps.symm⟩

theorem LeadsTo.resolve_of_ne_empty (h : t.LeadsTo p q) (hne : p.text ≠ "") :
    t.resolve true p = .ok (q, some .directory) := by
  obtain ⟨left, hwalks⟩ := h
  rw [FileTree.resolve_of_ne_empty hne, ← List.append_nil p.segments,
    hwalks.resolveFrom_append true [] (.inl rfl), resolveFrom]

theorem exists_resolve_of_readBytes (h : t.readBytes p = .ok content) :
    ∃ q, t.resolve true p = .ok (q, some (.file content)) := by
  unfold readBytes at h
  split at h
  · rename_i q c hresolve
    cases h
    exact ⟨q, hresolve⟩
  · cases h
  · cases h
  · cases h

theorem LeadsTo.readBytes_join (h : t.LeadsTo p place) (hname : IsName name)
    (hentry : t.entry? (place ++ [name]) = some (.file content)) :
    t.readBytes (p.join name) = .ok content := by
  rw [readBytes, h.resolve_join hname (by simp [hentry]), hentry]

/-! ### Names below a directory -/

section Names
variable (hnames : ∀ name ∈ names, IsName name) (hleads : t.LeadsTo p place)
include hnames hleads

theorem IsLinkless.eq_of_leadsTo_foldl (hlinkless : t.IsLinkless)
    (h : t.LeadsTo (names.foldl Path.join p) q) : q = place ++ names := by
  induction names using List.reverseRecOn generalizing q with
  | nil =>
    rw [List.append_nil]
    exact h.unique hleads
  | append_singleton names name ih =>
    rw [List.foldl_append, List.foldl_cons, List.foldl_nil] at h
    have hname := hnames name (by simp)
    have hresolve := h.resolve_of_ne_empty (Path.text_join_ne_empty hname)
    obtain ⟨mid, hmid⟩ := exists_leadsTo_of_resolve_join hname hresolve
    rw [hmid.resolve_join hname (hlinkless _) true] at hresolve
    rw [← (Prod.mk.inj (Except.ok.inj hresolve)).1,
      ih (fun name hname => hnames name (List.mem_append_left _ hname)) hmid, List.append_assoc]

theorem IsLinkless.entry?_of_readBytes (hlinkless : t.IsLinkless) (hne : names ≠ [])
    (h : t.readBytes (names.foldl Path.join p) = .ok content) :
    t.entry? (place ++ names) = some (.file content) := by
  obtain rfl | ⟨names, name, rfl⟩ := List.eq_nil_or_concat' names
  · exact absurd rfl hne
  rw [List.foldl_append, List.foldl_cons, List.foldl_nil] at h
  have hname := hnames name (by simp)
  obtain ⟨q, hresolve⟩ := exists_resolve_of_readBytes h
  obtain ⟨mid, hmid⟩ := exists_leadsTo_of_resolve_join hname hresolve
  obtain rfl := hlinkless.eq_of_leadsTo_foldl
    (fun name hname => hnames name (List.mem_append_left _ hname)) hleads hmid
  rw [hmid.resolve_join hname (hlinkless _) true] at hresolve
  rw [← List.append_assoc]
  exact (Prod.mk.inj (Except.ok.inj hresolve)).2

theorem IsTree.leadsTo_foldl (htree : t.IsTree)
    (hentry : t.entry? (place ++ names) = some .directory) :
    t.LeadsTo (names.foldl Path.join p) (place ++ names) := by
  induction names using List.reverseRecOn with
  | nil =>
    rw [List.append_nil]
    exact hleads
  | append_singleton names name ih =>
    rw [← List.append_assoc] at hentry ⊢
    rw [List.foldl_append, List.foldl_cons, List.foldl_nil]
    have hmid := ih (fun name hname => hnames name (List.mem_append_left _ hname))
      (htree.directory_of_entry? hentry)
    exact hmid.join (hnames name (by simp)) hentry

end Names

/-! ### Reading without links -/

namespace IsLinkless

/-- Without links, a file that is found has the name that stands last on the way. -/
theorem exists_walks_of_resolveFrom_file (hlinkless : t.IsLinkless)
    (h : t.resolveFrom true links place segments = .ok (q, some (.file content))) :
    ∃ before name left mid, segments = before ++ [name] ∧ isStep name = true ∧ name ≠ ".." ∧
      Walks t links place before left mid ∧ q = mid ++ [name] := by
  fun_induction resolveFrom t true links place segments with
  | case1 => simp at h
  | case2 links place rest ih
  | case3 links place rest ih =>
    obtain ⟨before, name, left, mid, rfl, hstep, hparent, hwalks, hq⟩ := ih h
    exact ⟨_ :: before, name, left, mid, rfl, hstep, hparent, .stay rfl hwalks, hq⟩
  | case4 links place rest ih =>
    obtain ⟨before, name, left, mid, rfl, hstep, hparent, hwalks, hq⟩ := ih h
    exact ⟨".." :: before, name, left, mid, rfl, hstep, hparent, .up hwalks, hq⟩
  | case7 links place segment rest hempty hdot hparent here hentry ih =>
    obtain ⟨before, name, left, mid, rfl, hstep, hparent', hwalks, hq⟩ := ih h
    exact ⟨segment :: before, name, left, mid, rfl, hstep, hparent',
      .down (isStep_of_ne hempty hdot) hparent hentry hwalks, hq⟩
  | case8 links place segment rest hempty hdot hparent here content hentry hends =>
    obtain rfl : rest = [] := by simpa using hends
    refine ⟨[], segment, links, place, rfl, isStep_of_ne hempty hdot, hparent, .done, ?_⟩
    exact (Prod.mk.inj (Except.ok.inj h)).1.symm
  | case13 place segment rest hempty hdot hparent here target hentry =>
    exact absurd hentry (hlinkless _ target)
  | _ => simp at h

section Grown
variable (hlinkless : t.IsLinkless) (hgrown : Grown A t w) (hplain : PlainAt A t)
include hlinkless hgrown

theorem of_grown (hplain' : PlainAt A w) : w.IsLinkless := by
  intro q target
  by_cases hq : q ∈ A
  · exact (hplain' q hq).ne_link target
  · rcases hgrown.entry?_eq_or q hq with heq | ⟨-, hdirectory⟩
    · rw [heq]
      exact hlinkless q target
    · simp [hdirectory]

include hplain

/-- Without links, a file that is read behind a path to a directory is there before a tree has grown
elsewhere if and only if it is there afterwards. -/
theorem readBytes_foldl_iff (htree : t.IsTree) (hplain' : PlainAt A w)
    (hleads : t.LeadsTo p place) (hnames : ∀ name ∈ names, IsName name) (hne : names ≠ [])
    (hout : place ++ names ∉ A) :
    w.readBytes (names.foldl Path.join p) = .ok content ↔
      t.readBytes (names.foldl Path.join p) = .ok content := by
  have hkeeps := hgrown.keeps hplain
  have hleads' := hleads.mono hkeeps hgrown.working
  have hfile : t.entry? (place ++ names) = some (.file content) →
      t.readBytes (names.foldl Path.join p) = .ok content ∧
        (w.entry? (place ++ names) = some (.file content) →
          w.readBytes (names.foldl Path.join p) = .ok content) := by
    intro hentry
    obtain rfl | ⟨before, name, rfl⟩ := List.eq_nil_or_concat' names
    · exact absurd rfl hne
    rw [List.foldl_append, List.foldl_cons, List.foldl_nil]
    rw [← List.append_assoc] at hentry ⊢
    have hbefore := htree.leadsTo_foldl
      (fun name hname => hnames name (List.mem_append_left _ hname)) hleads
      (htree.directory_of_entry? hentry)
    have hname := hnames name (by simp)
    exact ⟨hbefore.readBytes_join hname hentry,
      (hbefore.mono hkeeps hgrown.working).readBytes_join hname⟩
  constructor
  · intro hread
    have hentry := (hlinkless.of_grown hgrown hplain').entry?_of_readBytes hnames hleads' hne hread
    exact (hfile ((hgrown.entry?_of_ne hout (by simp [hentry])).trans hentry)).1
  · intro hread
    have hentry := hlinkless.entry?_of_readBytes hnames hleads hne hread
    exact (hfile hentry).2 (hgrown.entry?_eq hout hentry)

/-- Without links, a file that is read is still read after a tree has grown, if its name is not one of
those in the other places. -/
theorem readBytes_of_grown (hread : t.readBytes p = .ok content)
    (hout : ∀ name ∈ p.segments.getLast?, ∀ q, q ++ [name] ∉ A) :
    w.readBytes p = .ok content := by
  obtain ⟨q, hresolve⟩ := exists_resolve_of_readBytes hread
  have hfrom := resolveFrom_of_resolve hresolve
  obtain ⟨before, name, left, mid, hsegments, hstep, hparent, hwalks, rfl⟩ :=
    hlinkless.exists_walks_of_resolveFrom_file hfrom
  have hentry := hgrown.entry?_eq (hout name (by simp [hsegments]) mid)
    (entry?_of_resolveFrom hfrom (by simp))
  have hne : p.text ≠ "" := by
    intro hempty
    simp [resolve, hempty] at hresolve
  have hstart : w.start p = t.start p := by rw [start, start, hgrown.working]
  have hresolve' : w.resolve true p = .ok (mid ++ [name], some (.file content)) := by
    rw [resolve_of_ne_empty hne, hsegments, hstart,
      (hwalks.mono (hgrown.keeps hplain)).resolveFrom_append true [name] (.inl rfl),
      resolveFrom_last hstep hparent true (by simp [hentry]), hentry]
  rw [readBytes, hresolve']

end Grown

end IsLinkless

end CallAtlas.FileTree
