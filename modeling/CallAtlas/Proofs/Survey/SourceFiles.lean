import CallAtlas.Proofs.Survey.ReportOrder
import CallAtlas.Proofs.Survey.Unaffected
/-!
# Which files are found

Discovery decides entry by entry on its way down what to leave out. What it finds is told by whole
paths: the source files below a directory such that neither the file nor a directory between the two
is excluded. Where ignore files do not count, these are all.

The induction is on the depth of the search. It does not end too early, since a directory is no deeper
than there are entries.
-/

namespace CallAtlas

open CallAtlas.Path (IsName)
open Ignore (Rules)

theorem Language.isSource_iff {p : Path} :
    isSource p = true ↔ p.extension? = some "py" ∨ p.extension? = some "pyi" := by
  cases h : p.extension? with
  | none => simp [isSource, find?, known, handles, h]
  | some extension => simp [isSource, find?, known, handles, python, h]

theorem Path.components_foldl_join {p : Path} {names : List String}
    (h : ∀ name ∈ names, IsName name) :
    (names.foldl join p).components = p.components ++ names.map Component.normal := by
  induction names generalizing p with
  | nil => simp
  | cons name names ih =>
    rw [List.foldl_cons, ih fun name hname => h name (List.mem_cons_of_mem _ hname),
      components_join (h name List.mem_cons_self), List.map_cons, List.append_assoc]
    rfl

namespace Survey

variable {t : FileTree} {o : Options} {rules : Rules} {root dir p : Path} {place q : Place}
variable {name : String} {names rest : List String} {e : Entry} {depth : Nat}

/-- The names lead from a directory at a place down to a source file. Rules exclude neither the file nor
a directory on the way. -/
structure LeadsToSource (t : FileTree) (rules : Rules) (dir : Path) (q : Place)
    (names : List String) : Prop where
  ne_nil : names ≠ []
  file : ∃ content, t.entry? (q ++ names) = some (.file content)
  source : (names.foldl Path.join dir).extension? = some "py" ∨
    (names.foldl Path.join dir).extension? = some "pyi"
  kept : rules.excludes (names.foldl Path.join dir).text false = false
  entered : ∀ before behind, names = before ++ behind → before ≠ [] → behind ≠ [] →
    rules.excludes (before.foldl Path.join dir).text true = false

theorem leadsToSource_singleton :
    LeadsToSource t rules dir q [name] ↔
      (∃ content, t.entry? (q ++ [name]) = some (.file content)) ∧
        Language.isSource (dir.join name) = true ∧
        rules.excludes (dir.join name).text false = false := by
  rw [Language.isSource_iff]
  constructor
  · intro h
    exact ⟨h.file, h.source, h.kept⟩
  · rintro ⟨hfile, hsource, hkept⟩
    refine ⟨by simp, hfile, hsource, hkept, ?_⟩
    intro before behind hsplit hbefore hbehind
    rcases List.cons_eq_append_iff.1 hsplit with ⟨hnil, -⟩ | ⟨before', -, hrest⟩
    · exact absurd hnil hbefore
    · exact absurd (List.append_eq_nil_iff.1 hrest.symm).2 hbehind

theorem leadsToSource_cons (htree : t.IsTree) (hrest : rest ≠ []) :
    LeadsToSource t rules dir q (name :: rest) ↔
      t.entry? (q ++ [name]) = some .directory ∧
        rules.excludes (dir.join name).text true = false ∧
        LeadsToSource t rules (dir.join name) (q ++ [name]) rest := by
  have hplace : q ++ name :: rest = q ++ [name] ++ rest := by simp
  constructor
  · intro h
    obtain ⟨content, hfile⟩ := h.file
    rw [hplace] at hfile
    refine ⟨htree.directory_of_append hrest hfile, h.entered [name] rest rfl (by simp) hrest, hrest,
      ⟨content, hfile⟩, h.source, h.kept, ?_⟩
    intro before behind hsplit _ hbehind
    exact h.entered (name :: before) behind (by rw [hsplit]; rfl) (by simp) hbehind
  · rintro ⟨-, hentered, h⟩
    obtain ⟨content, hfile⟩ := h.file
    refine ⟨by simp, ⟨content, by rw [hplace, hfile]⟩, h.source, h.kept, ?_⟩
    intro before behind hsplit hbefore hbehind
    rcases List.cons_eq_append_iff.1 hsplit with ⟨hnil, -⟩ | ⟨before, rfl, hrest⟩
    · exact absurd hnil hbefore
    · by_cases hnil : before = []
      · rw [hnil]
        exact hentered
      · exact h.entered before behind hrest hnil hbehind

theorem LeadsToSource.isName (htree : t.IsTree) (h : LeadsToSource t rules dir q names) :
    ∀ name ∈ names, IsName name := by
  obtain ⟨content, hfile⟩ := h.file
  intro name hname
  exact htree.isName_of_mem hfile (List.mem_append_right _ hname)

theorem LeadsToSource.exists_entry (htree : t.IsTree)
    (h : LeadsToSource t rules dir q (name :: rest)) : ∃ e, t.entry? (q ++ [name]) = some e := by
  by_cases hrest : rest = []
  · subst hrest
    obtain ⟨content, hfile⟩ := h.file
    exact ⟨_, hfile⟩
  · exact ⟨_, ((leadsToSource_cons htree hrest).1 h).1⟩

theorem LeadsToSource.length_le (htree : t.IsTree) (h : LeadsToSource t rules dir q names) :
    names.length ≤ depthBound t := by
  obtain ⟨content, hfile⟩ := h.file
  obtain ⟨before, last, rfl⟩ := (List.eq_nil_or_concat' names).resolve_left h.ne_nil
  rw [← List.append_assoc] at hfile
  have hle := htree.length_le_size ⟨fun _ h => h, fun _ _ h => h⟩ (htree.directory_of_entry? hfile)
  rw [List.length_append] at hle
  rw [depthBound, List.length_append, List.length_singleton]
  omega

/-! ### The files of a search -/

/-- The filter of a search where ignore files do not count. -/
def excluding (rules : Rules) : Filter := ⟨rules, none⟩

theorem rejects_excluding (rules : Rules) (p : Path) (name : String) (isDirectory : Bool) :
    (excluding rules).rejects p name isDirectory = rules.excludes p.text isDirectory :=
  Bool.false_or _

theorem mem_filesAt_iff (htree : t.IsTree) (hentry : t.entry? (q ++ [name]) = some e)
    (hbelow : p ∈ filesBelow t depth (excluding rules) (dir.join name) (q ++ [name]) ↔
      ∃ names, names.length ≤ depth ∧
        LeadsToSource t rules (dir.join name) (q ++ [name]) names ∧
        p = names.foldl Path.join (dir.join name)) :
    p ∈ filesAt t depth (excluding rules) dir q name e ↔
      ∃ names, names.length ≤ depth ∧ LeadsToSource t rules dir q (name :: names) ∧
        p = names.foldl Path.join (dir.join name) := by
  unfold filesAt
  rw [rejects_excluding]
  constructor
  · intro h
    split at h
    · cases h
    rename_i hkept
    rw [Bool.not_eq_true] at hkept
    cases e with
    | file content =>
      dsimp only at h
      split at h
      · rename_i hsource
        obtain rfl := List.mem_singleton.1 h
        exact ⟨[], Nat.zero_le _, leadsToSource_singleton.2 ⟨⟨content, hentry⟩, hsource, hkept⟩, rfl⟩
      · cases h
    | directory =>
      obtain ⟨names, hlength, hleads, rfl⟩ := hbelow.1 h
      exact ⟨names, hlength, (leadsToSource_cons htree hleads.ne_nil).2 ⟨hentry, hkept, hleads⟩, rfl⟩
    | link target => cases h
  · rintro ⟨names, hlength, hleads, rfl⟩
    by_cases hnil : names = []
    · subst hnil
      obtain ⟨⟨content, hfile⟩, hsource, hkept⟩ := leadsToSource_singleton.1 hleads
      obtain rfl := Option.some.inj (hentry.symm.trans hfile)
      simp [Entry.isDirectory, hsource, hkept]
    · obtain ⟨hdirectory, hkept, hrest⟩ := (leadsToSource_cons htree hnil).1 hleads
      obtain rfl := Option.some.inj (hentry.symm.trans hdirectory)
      rw [Entry.isDirectory, hkept, if_neg Bool.false_ne_true]
      exact hbelow.2 ⟨names, hlength, hrest, rfl⟩

theorem mem_filesBelow_iff (htree : t.IsTree) :
    p ∈ filesBelow t depth (excluding rules) dir q ↔
      ∃ names, names.length ≤ depth ∧ LeadsToSource t rules dir q names ∧
        p = names.foldl Path.join dir := by
  induction depth generalizing dir q p with
  | zero =>
    constructor
    · intro h
      cases h
    · rintro ⟨names, hlength, hleads, -⟩
      exact absurd (List.length_eq_zero_iff.1 (Nat.le_zero.1 hlength)) hleads.ne_nil
  | succ depth ih =>
    rw [filesBelow_succ, List.mem_flatMap]
    constructor
    · rintro ⟨⟨name, e⟩, hchild, hp⟩
      obtain ⟨names, hlength, hleads, hp⟩ := (mem_filesAt_iff htree (mem_children.1 hchild) ih).1 hp
      exact ⟨name :: names, Nat.succ_le_succ hlength, hleads, hp⟩
    · rintro ⟨names, hlength, hleads, hp⟩
      obtain ⟨name, names, rfl⟩ := List.exists_cons_of_ne_nil hleads.ne_nil
      obtain ⟨e, hentry⟩ := hleads.exists_entry htree
      refine ⟨(name, e), mem_children.2 hentry, (mem_filesAt_iff htree hentry ih).2 ?_⟩
      exact ⟨names, Nat.le_of_succ_le_succ hlength, hleads, hp⟩

/-! ### The order of the files -/

theorem pairwise_children (t : FileTree) (q : Place) :
    (t.children q).Pairwise fun c d => c.1 ≠ d.1 := by
  rw [FileTree.children, List.pairwise_filterMap]
  apply t.entries.ascending.imp
  rintro ⟨x, e⟩ ⟨y, f⟩ hlt c hc d hd hname
  obtain rfl | ⟨before, name, rfl⟩ := List.eq_nil_or_concat' x
  · cases hc
  obtain rfl | ⟨before', name', rfl⟩ := List.eq_nil_or_concat' y
  · cases hd
  simp only [List.getLast?_concat, List.dropLast_concat, beq_iff_eq, Option.ite_none_right_eq_some,
    Option.some.injEq] at hc hd
  obtain ⟨hbefore, rfl⟩ := hc
  obtain ⟨hbefore', rfl⟩ := hd
  obtain rfl : name = name' := hname
  exact ne_of_compare_lt hlt (by rw [hbefore, hbefore'])

section Below
variable {f : Filter}

theorem prefix_of_mem_filesAt (hname : IsName name)
    (hbelow : ∀ {dir q p}, p ∈ filesBelow t depth f dir q → dir.components <+: p.components)
    (h : p ∈ filesAt t depth f dir q name e) :
    dir.components ++ [.normal name] <+: p.components := by
  have hjoin : (dir.join name).components = dir.components ++ [.normal name] :=
    Path.components_join hname
  unfold filesAt at h
  split at h
  · cases h
  cases e with
  | file content =>
    dsimp only at h
    split at h
    · obtain rfl := List.mem_singleton.1 h
      exact hjoin ▸ List.prefix_rfl
    · cases h
  | directory => exact hjoin ▸ hbelow h
  | link target => cases h

/-- What is found below a directory is written like a way down from it. -/
theorem prefix_of_mem_filesBelow (htree : t.IsTree) (h : p ∈ filesBelow t depth f dir q) :
    dir.components <+: p.components := by
  induction depth generalizing f dir q p with
  | zero => cases h
  | succ depth ih =>
    rw [filesBelow_succ, List.mem_flatMap] at h
    obtain ⟨⟨name, e⟩, hchild, hp⟩ := h
    have hname : IsName name := htree.isName_of_mem (mem_children.1 hchild) (by simp)
    exact (List.prefix_append _ _).trans (prefix_of_mem_filesAt hname ih hp)

/-- No file is found twice, whatever the paths are written like. -/
theorem pairwise_filesBelow (htree : t.IsTree) :
    (filesBelow t depth f dir q).Pairwise fun p r => p.components ≠ r.components := by
  induction depth generalizing f dir q with
  | zero => exact .nil
  | succ depth ih =>
    rw [filesBelow_succ, List.pairwise_flatMap]
    constructor
    · rintro ⟨name, e⟩ -
      unfold filesAt
      split
      · exact .nil
      · cases e with
        | file content =>
          dsimp only
          split
          · exact List.pairwise_singleton _ _
          · exact .nil
        | directory => exact ih
        | link target => exact .nil
    · -- files below different entries differ in the name of the entry
      apply (pairwise_children t q).imp_of_mem
      intro c d hc hd hne p hp r hr heq
      have hbelow : ∀ {c : String × Entry} {p : Path}, c ∈ t.children q →
          p ∈ filesAt t depth (f.enter t dir) dir q c.1 c.2 →
          dir.components ++ [.normal c.1] <+: p.components := fun hc hp =>
        prefix_of_mem_filesAt (htree.isName_of_mem (mem_children.1 hc) (by simp))
          (prefix_of_mem_filesBelow htree) hp
      obtain ⟨rest, hrest⟩ := hbelow hc hp
      obtain ⟨rest', hrest'⟩ := hbelow hd hr
      rw [← hrest, ← hrest', List.append_assoc, List.append_assoc] at heq
      have hnames := (List.cons.inj (List.append_cancel_left heq)).1
      exact hne (Component.normal.inj hnames)

end Below

theorem ascending_mergeSort {files : List Path}
    (h : files.Pairwise fun p r => p.components ≠ r.components) :
    (files.mergeSort fun p r => (compare p r).isLE).Pairwise fun p r =>
      compare p.components r.components = .lt := by
  have hordered := List.pairwise_mergeSort Path.isLE_trans Path.isLE_total files
  have hdistinct := ((List.mergeSort_perm files fun p r =>
    (compare p r).isLE).pairwise_iff fun hne => Ne.symm hne).2 h
  apply (hordered.and hdistinct).imp
  intro p r ⟨hle, hne⟩
  have heq : compare p r ≠ .eq := fun heq => hne (Path.compare_eq_iff.1 heq)
  change compare p r = .lt
  cases hcompare : compare p r with
  | lt => rfl
  | eq => exact absurd hcompare heq
  | gt =>
    rw [hcompare] at hle
    cases hle

/-- No file is found twice, whatever ignore files and patterns leave out. -/
theorem distinct_of_discover {files : List Path} (htree : t.IsTree)
    (h : discover t o root = .ok files) :
    files.Pairwise fun p r => p.components ≠ r.components := by
  unfold discover at h
  split at h
  · split at h
    · cases h
      exact List.pairwise_singleton _ _
    · cases h
  · cases h
    exact (ascending_mergeSort (pairwise_filesBelow htree)).imp fun hlt => ne_of_compare_lt hlt
  · cases h
  · cases h

/-- Where ignore files do not count, a search from a directory finds every source file to which names
lead such that neither the file nor a directory on the way is excluded, and nothing else. The files
come in strictly ascending order of their components. -/
theorem discover_exact (htree : t.IsTree)
    (hroot : t.resolve true root = .ok (place, some .directory))
    (hrespect : o.respectIgnore = false) :
    ∃ files, discover t o root = .ok files ∧
      (files.Pairwise fun p r => compare p.components r.components = .lt) ∧
      ∀ p, p ∈ files ↔ ∃ names, LeadsToSource t (.ofLines root.text o.exclude) root place names ∧
        p = names.foldl Path.join root := by
  have hstart : Filter.start t o root place = excluding (.ofLines root.text o.exclude) := by
    simp [Filter.start, excluding, hrespect]
  refine ⟨_, by rw [discover, hroot], ?_, ?_⟩
  · rw [hstart]
    exact ascending_mergeSort (pairwise_filesBelow htree)
  · intro p
    rw [List.mem_mergeSort, hstart, mem_filesBelow_iff htree]
    constructor
    · rintro ⟨names, -, hleads, hp⟩
      exact ⟨names, hleads, hp⟩
    · rintro ⟨names, hleads, hp⟩
      exact ⟨names, hleads.length_le htree, hleads, hp⟩

/-- A project with a directory that is excluded although a file in it is not. -/
def layeredProject : FileTree :=
  ⟨.ofList [(["src"], .directory), (["src", "app.py"], .file .empty),
    (["src", "app_test.py"], .file .empty), (["src", "legacy"], .directory),
    (["src", "legacy", "keep.py"], .file .empty), (["src", "link.py"], .link "app.py"),
    (["src", "notes.txt"], .file .empty), (["src", "pkg"], .directory),
    (["src", "pkg", "stub.pyi"], .file .empty)], []⟩

theorem discover_exact_layered :
    let patterns := ["legacy/", "!legacy/keep.py", "*_test.py"]
    ∃ files, discover layeredProject { exclude := patterns } ⟨"src"⟩ = .ok files ∧
      ⟨"src/pkg/stub.pyi"⟩ ∈ files ∧ ⟨"src/legacy/keep.py"⟩ ∉ files ∧
      (Rules.ofLines "src" patterns).excludes "src/legacy/keep.py" false = false := by
  intro patterns
  have htree : layeredProject.IsTree := by
    refine ⟨rfl, ?_, ?_⟩ <;> decide +kernel
  have hleads : layeredProject.LeadsTo ⟨"src"⟩ ["src"] := by
    have hentry : layeredProject.entry? ["src"] = some .directory := by decide +kernel
    have hjoin : Path.join ⟨""⟩ "src" = ⟨"src"⟩ := by decide
    rw [← hjoin]
    exact layeredProject.leadsTo_empty.join (by decide) hentry
  obtain ⟨files, hdiscover, -, hmem⟩ :=
    discover_exact htree (hleads.resolve_of_ne_empty (by decide))
      (rfl : ({ exclude := patterns } : Options).respectIgnore = false)
  refine ⟨files, hdiscover, ?_, ?_, by decide +kernel⟩
  · have hstub : LeadsToSource layeredProject (.ofLines "src" patterns) ⟨"src/pkg"⟩ ["src", "pkg"]
        ["stub.pyi"] :=
      leadsToSource_singleton.2 ⟨⟨_, rfl⟩, by decide +kernel, by decide +kernel⟩
    exact (hmem _).2 ⟨["pkg", "stub.pyi"],
      (leadsToSource_cons htree (by decide)).2 ⟨rfl, by decide +kernel, hstub⟩, by decide +kernel⟩
  · intro hkeep
    obtain ⟨names, hleads, hp⟩ := (hmem _).1 hkeep
    have hcomponents := congrArg Path.components hp
    have hwritten : Path.components ⟨"src/legacy/keep.py"⟩ =
        Path.components ⟨"src"⟩ ++ ["legacy", "keep.py"].map .normal := by decide +kernel
    rw [hwritten, Path.components_foldl_join (hleads.isName htree)] at hcomponents
    have hmap := List.append_cancel_left hcomponents
    obtain rfl := List.map_injective_iff.2 (fun _ _ => Component.normal.inj) hmap
    have hentered := ((leadsToSource_cons htree (by decide)).1 hleads).2.1
    revert hentered
    decide +kernel

end Survey

end CallAtlas
