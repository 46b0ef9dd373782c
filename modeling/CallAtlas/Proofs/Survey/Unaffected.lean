import CallAtlas.Proofs.Files.Trees
import CallAtlas.Survey.Workers
/-!
# What a survey does not see

A survey reads the source files below a directory and the ignore files in it, above it and below it.
New directories, and files of other names, change nothing of what it finds, as long as its paths lead
to the same contents.
-/

namespace CallAtlas

namespace Path

variable {p : Path} {name : String}

theorem extension?_of_getLast? (h : p.segments.getLast? = some name) (hname : IsName name) :
    p.extension? = (splitName name).2 := by
  obtain ⟨start, hcomponents, -⟩ := components_eq p
  obtain ⟨before, hsegments⟩ := List.getLast?_eq_some_iff.1 h
  have hlast : p.components.getLast? = some (.normal name) := by
    rw [hcomponents, hsegments, List.filterMap_append, ← List.append_assoc]
    simp [hname.componentOf]
  simp [extension?, fileName?, hlast]

theorem extension?_join (h : IsName name) : (p.join name).extension? = (splitName name).2 := by
  obtain ⟨before, hsegments, -⟩ := exists_segments_join (p := p) h
  exact extension?_of_getLast? (by simp [hsegments]) h

end Path

theorem Language.isSource_congr {p q : Path} (h : p.extension? = q.extension?) :
    isSource p = isSource q := by
  simp only [isSource, find?, known, List.find?_cons, handles, h]

theorem Language.isSource_join {p : Path} {name : String} (h : Path.IsName name) :
    isSource (p.join name) = isSource ⟨name⟩ := by
  apply isSource_congr
  rw [Path.extension?_join h, Path.extension?_of_getLast? _ h]
  rw [Path.segments, Path.segmentsOf_of_not_mem h.no_separator]
  rfl

namespace Survey

open CallAtlas.Path (IsName)
open FileTree (Grown PlainAt)
open Ignore (Directory Surroundings rulesIn)

variable {t w : FileTree} {o : Options} {root dir p : Path} {place q : Place} {A : List Place}
variable {name : String} {names : List String}

/-! ### What is read through paths -/

/-- The directories whose ignore files a survey may read: those above the one at a place where it
starts, that one, and those below it. -/
inductive Consulted (t : FileTree) (root : Path) (place : Place) : Path → Prop where
  | above {q : Place} (hq : q ∈ Surroundings.placesAbove place) :
      Consulted t root place ⟨FileTree.absolute q⟩
  | below {names : List String} (hentry : t.entry? (place ++ names) = some .directory) :
      Consulted t root place (names.foldl Path.join root)

/-- In another tree, the path where a survey starts leads to the same source file, if it leads to one,
and ignore files that count have the same rules. -/
structure ReadsAlike (o : Options) (root : Path) (t w : FileTree) : Prop where
  file : Language.isSource root = true → ∀ content, t.readBytes root = .ok content →
    w.readBytes root = .ok content
  rules : o.respectIgnore = true → ∀ place, t.resolve true root = .ok (place, some .directory) →
    ∀ directory, Consulted t root place directory →
      Directory.read w directory = Directory.read t directory

/-- Places whose names are neither those of source files nor those of ignore files. -/
def Unread (A : List Place) : Prop :=
  ∀ q name, q ++ [name] ∈ A → IsName name ∧ Language.isSource ⟨name⟩ = false ∧
    name ∉ [".ignore", ".gitignore", "exclude"]

theorem leadsTo_of_consulted (htree : t.IsTree) (hroot : t.LeadsTo root place)
    (h : Consulted t root place dir) : ∃ q, t.LeadsTo dir q := by
  cases h with
  | @above q hq =>
    obtain ⟨n, -, rfl⟩ := List.mem_map.1 hq
    have hdirectory := htree.directory_take (htree.directory_of_leadsTo hroot) n
    exact ⟨_, htree.leadsTo_absolute hdirectory⟩
  | @below names hentry =>
    have hnames : ∀ name ∈ names, IsName name :=
      fun name hname => htree.isName_of_mem hentry (List.mem_append_right _ hname)
    exact ⟨_, htree.leadsTo_foldl hnames hroot hentry⟩

theorem read_eq_foldl (t : FileTree) (dir : Path) :
    Directory.read t dir =
      ⟨rulesIn t dir.text ([".ignore"].foldl Path.join dir),
        rulesIn t dir.text ([".gitignore"].foldl Path.join dir),
        rulesIn t dir.text ([".git", "info", "exclude"].foldl Path.join dir)⟩ := by
  have hpersonal : [".git", "info", "exclude"].foldl Path.join dir =
      dir.join ".git/info/exclude" := by
    have hgit : IsName ".git" := by decide
    have hinfo : IsName "info" := by decide
    simp only [List.foldl_cons, List.foldl_nil]
    rw [Path.join_join hinfo (by decide), Path.join_join hgit (by decide)]
    rfl
  rw [hpersonal]
  rfl

theorem rulesIn_congr {base : String} (h : ∀ content, w.readBytes p = .ok content ↔
    t.readBytes p = .ok content) : rulesIn w base p = rulesIn t base p := by
  unfold rulesIn
  cases ht : t.readBytes p with
  | ok content => rw [(h content).2 ht]
  | error e =>
    cases hw : w.readBytes p with
    | ok content =>
      rw [(h content).1 hw] at ht
      cases ht
    | error e' => rfl

/-- Without links, everything is read alike after a tree has grown elsewhere. -/
theorem readsAlike_of_isLinkless (htree : t.IsTree) (hlinkless : t.IsLinkless)
    (hgrown : Grown A t w) (hplain : PlainAt A t) (hplain' : PlainAt A w) (hunread : Unread A)
    (o : Options) (root : Path) : ReadsAlike o root t w := by
  constructor
  · -- a source file has another name than any of the other places
    intro hsource content hread
    refine hlinkless.readBytes_of_grown hgrown hplain hread fun name hlast q hmem => ?_
    obtain ⟨hname, hother, -⟩ := hunread q name hmem
    have hsame : Language.isSource root = Language.isSource ⟨name⟩ := by
      apply Language.isSource_congr
      rw [Path.extension?_of_getLast? hlast hname, Path.extension?_of_getLast? _ hname]
      rw [Path.segments, Path.segmentsOf_of_not_mem hname.no_separator]
      rfl
    rw [hsame, hother] at hsource
    cases hsource
  · intro _ place hresolve dir hdir
    obtain ⟨q, hleads⟩ :=
      leadsTo_of_consulted htree (FileTree.leadsTo_of_resolve hresolve) hdir
    have hrules : ∀ names : List String, names ≠ [] → (∀ name ∈ names, IsName name) →
        names.getLast?.getD "" ∈ [".ignore", ".gitignore", "exclude"] →
        rulesIn w dir.text (names.foldl Path.join dir) =
          rulesIn t dir.text (names.foldl Path.join dir) := by
      intro names hne hnames hrule
      apply rulesIn_congr
      intro content
      apply hlinkless.readBytes_foldl_iff hgrown hplain htree hplain' hleads hnames hne
      obtain rfl | ⟨before, name, rfl⟩ := List.eq_nil_or_concat' names
      · exact absurd rfl hne
      · rw [List.getLast?_concat] at hrule
        rw [← List.append_assoc]
        exact fun hmem => (hunread _ name hmem).2.2 hrule
    rw [read_eq_foldl, read_eq_foldl, hrules [".ignore"] (by decide) (by decide) (by decide),
      hrules [".gitignore"] (by decide) (by decide) (by decide),
      hrules [".git", "info", "exclude"] (by decide) (by decide) (by decide)]

/-! ### What is found below a directory -/

theorem mem_children {name : String} {e : Entry} :
    (name, e) ∈ t.children q ↔ t.entry? (q ++ [name]) = some e := by
  rw [FileTree.entry?_concat, ← OrderedMap.mem_entries_iff, FileTree.children, List.mem_filterMap]
  constructor
  · rintro ⟨⟨x, e'⟩, hmem, hx⟩
    obtain rfl | ⟨before, last, rfl⟩ := List.eq_nil_or_concat' x
    · cases hx
    · simp only [List.getLast?_concat, List.dropLast_concat, beq_iff_eq, Option.ite_none_right_eq_some,
        Option.some.injEq, Prod.mk.injEq] at hx
      obtain ⟨rfl, rfl, rfl⟩ := hx
      exact hmem
  · intro hmem
    exact ⟨_, hmem, by simp⟩

/-- What a directory's entries give, as what all entries of the tree give. -/
def given {γ : Type} (q : Place) (g : String → Entry → List γ) (x : Place) (e : Entry) : List γ :=
  match x.getLast? with
  | some name => if x.dropLast == q then g name e else []
  | none => []

theorem given_concat {γ : Type} (g : String → Entry → List γ) (before : Place) (name : String) :
    given q g (before ++ [name]) = if before = q then g name else fun _ => [] := by
  funext e
  by_cases h : before = q <;> simp [given, h]

theorem flatMap_children {γ : Type} (t : FileTree) (q : Place) (g : String × Entry → List γ) :
    (t.children q).flatMap g =
      t.entries.entries.flatMap fun e => given q (fun name e => g (name, e)) e.1 e.2 := by
  unfold FileTree.children
  induction t.entries.entries with
  | nil => rfl
  | cons e rest ih =>
    obtain ⟨x, e⟩ := e
    rw [List.flatMap_cons, ← ih]
    obtain rfl | ⟨before, name, rfl⟩ := List.eq_nil_or_concat' x
    · rfl
    · by_cases hbefore : before = q <;> simp [given, hbefore]

theorem flatMap_children_congr {γ : Type} {g h : String × Entry → List γ}
    (heq : ∀ name, (t.entry? (q ++ [name])).elim [] (fun e => g (name, e)) =
      (w.entry? (q ++ [name])).elim [] (fun e => h (name, e))) :
    (t.children q).flatMap g = (w.children q).flatMap h := by
  rw [flatMap_children, flatMap_children]
  apply OrderedMap.flatMap_congr_of_get?
  intro x
  obtain rfl | ⟨before, name, rfl⟩ := List.eq_nil_or_concat' x
  · cases t.entries.get? [] <;> cases w.entries.get? [] <;> rfl
  · rw [given_concat, given_concat, ← FileTree.entry?_concat, ← FileTree.entry?_concat]
    split
    · rename_i hbefore
      rw [hbefore]
      exact heq name
    · cases t.entry? (before ++ [name]) <;> cases w.entry? (before ++ [name]) <;> rfl

/-- The source files that an entry of a directory gives. -/
def filesAt (t : FileTree) (depth : Nat) (f : Filter) (dir : Path) (q : Place) (name : String)
    (e : Entry) : List Path :=
  if f.rejects (dir.join name) name e.isDirectory then []
  else
    match e with
    | .file _ => if Language.isSource (dir.join name) then [dir.join name] else []
    | .directory => filesBelow t depth f (dir.join name) (q ++ [name])
    | .link _ => []

theorem filesBelow_succ (t : FileTree) (depth : Nat) (f : Filter) (dir : Path) (q : Place) :
    filesBelow t (depth + 1) f dir q =
      (t.children q).flatMap fun c => filesAt t depth (f.enter t dir) dir q c.1 c.2 := rfl

section Below
variable (htree : t.IsTree) (hgrown : Grown A t w) (hplain : PlainAt A t) (hplain' : PlainAt A w)
variable (hunread : Unread A)

include hunread in
theorem elim_filesAt_eq_nil (hmem : q ++ [name] ∈ A) (hthere : t.IsPlainAt (q ++ [name]))
    (u : FileTree) (depth : Nat) (f : Filter) (dir : Path) :
    (t.entry? (q ++ [name])).elim [] (filesAt u depth f dir q name) = [] := by
  obtain ⟨hname, hother, -⟩ := hunread q name hmem
  rw [← Language.isSource_join (p := dir) hname] at hother
  rcases hthere with hnone | ⟨content, hfile⟩
  · rw [hnone]
    rfl
  · rw [hfile]
    simp [filesAt, hother]

include htree hgrown hplain' hunread in
/-- There are no source files below a new directory. -/
theorem filesBelow_eq_nil (hnew : t.entry? q ≠ some .directory) (depth : Nat) (f : Filter)
    (dir : Path) : filesBelow w depth f dir q = [] := by
  induction depth generalizing f dir q with
  | zero => rfl
  | succ depth ih =>
    rw [filesBelow_succ, List.flatMap_eq_nil_iff]
    rintro ⟨name, e⟩ hmem
    have hentry := mem_children.1 hmem
    have hnone : t.entry? (q ++ [name]) = none := by
      cases hbefore : t.entry? (q ++ [name]) with
      | none => rfl
      | some e => exact absurd (htree.directory_of_entry? hbefore) hnew
    by_cases hout : q ++ [name] ∈ A
    · have hnil := elim_filesAt_eq_nil hunread hout (hplain' _ hout) w depth (f.enter w dir) dir
      rwa [hentry] at hnil
    · rcases hgrown.entry?_eq_or _ hout with heq | ⟨-, hdirectory⟩
      · rw [heq, hnone] at hentry
        cases hentry
      · rw [hdirectory, Option.some.injEq] at hentry
        subst hentry
        have hbelow := ih (q := q ++ [name]) (by simp [hnone]) (f.enter w dir) (dir.join name)
        simp only [filesAt, hbelow, ite_self]

omit htree hgrown hplain hplain' hunread in
theorem enter_eq {f : Filter} (h : f.ignored.isSome = true →
    Directory.read w dir = Directory.read t dir) : f.enter w dir = f.enter t dir := by
  obtain ⟨excluded, ignored⟩ := f
  cases ignored with
  | none => rfl
  | some s => simp [Filter.enter, Surroundings.enter, h rfl]

include htree hgrown hplain hplain' hunread in
/-- Under a name there are the same source files, if there are in a directory that was there before. -/
theorem elim_filesAt_eq {depth depth' : Nat} {f : Filter}
    (hbelow : t.entry? (q ++ [name]) = some .directory →
      filesBelow w depth' f (dir.join name) (q ++ [name]) =
        filesBelow t depth f (dir.join name) (q ++ [name])) :
    (w.entry? (q ++ [name])).elim [] (filesAt w depth' f dir q name) =
      (t.entry? (q ++ [name])).elim [] (filesAt t depth f dir q name) := by
  by_cases hmem : q ++ [name] ∈ A
  · rw [elim_filesAt_eq_nil hunread hmem (hplain _ hmem),
      elim_filesAt_eq_nil hunread hmem (hplain' _ hmem)]
  rcases hgrown.entry?_eq_or _ hmem with heq | ⟨hbefore, hafter⟩
  · rw [heq]
    cases hthere : t.entry? (q ++ [name]) with
    | none => rfl
    | some e =>
      cases e with
      | file content => simp only [Option.elim_some, filesAt]
      | link target => simp only [Option.elim_some, filesAt]
      | directory => simp only [Option.elim_some, filesAt, hbelow hthere]
  · -- what is new is a directory without source files
    have hnew : t.entry? (q ++ [name]) ≠ some .directory := by
      rw [hbefore]
      simp
    rw [hbefore, hafter]
    simp only [Option.elim_some, Option.elim_none, filesAt,
      filesBelow_eq_nil htree hgrown hplain' hunread hnew, ite_self]

include htree hgrown hplain hplain' hunread in
/-- Below a directory that was there before, the same source files are found. -/
theorem filesBelow_eq {depth depth' : Nat} {f : Filter}
    (hrules : f.ignored.isSome = true → ∀ dir, Consulted t root place dir →
      Directory.read w dir = Directory.read t dir)
    (hentry : t.entry? (place ++ names) = some .directory)
    (hdepth : t.entries.size < depth + (place ++ names).length)
    (hdepth' : w.entries.size < depth' + (place ++ names).length) :
    filesBelow w depth' f (names.foldl Path.join root) (place ++ names) =
      filesBelow t depth f (names.foldl Path.join root) (place ++ names) := by
  have hkeeps := hgrown.keeps hplain
  -- neither search ends for want of depth, since a directory is no deeper than there are entries
  induction depth generalizing depth' f names with
  | zero =>
    have hle := htree.length_le_size ⟨fun _ h => h, fun _ _ h => h⟩ hentry
    omega
  | succ depth ih =>
    cases depth' with
    | zero =>
      have hle := htree.length_le_size hkeeps hentry
      omega
    | succ depth' =>
      rw [filesBelow_succ, filesBelow_succ, enter_eq fun hsome => hrules hsome _ (.below hentry)]
      have hrules' : (f.enter t (names.foldl Path.join root)).ignored.isSome = true → _ :=
        fun hsome => hrules (by simpa [Filter.enter] using hsome)
      apply flatMap_children_congr
      intro name
      apply elim_filesAt_eq htree hgrown hplain hplain' hunread
      intro hthere
      rw [List.append_assoc] at hthere
      have hlength : (place ++ (names ++ [name])).length = (place ++ names).length + 1 := by
        simp [Nat.add_assoc]
      have hsize : w.entries.size < depth' + (place ++ (names ++ [name])).length := by omega
      have hbelow := ih hrules' hthere (by omega) hsize
      rwa [List.foldl_concat, ← List.append_assoc] at hbelow

/-! ### What is read of the files -/

omit hgrown hplain hplain' hunread in
include htree in
theorem exists_join_of_mem_filesBelow {depth : Nat} {f : Filter} (hleads : t.LeadsTo dir q)
    (h : p ∈ filesBelow t depth f dir q) :
    ∃ dir q name content, p = dir.join name ∧ t.LeadsTo dir q ∧ IsName name ∧
      t.entry? (q ++ [name]) = some (.file content) ∧ Language.isSource p = true := by
  induction depth generalizing f dir q with
  | zero => cases h
  | succ depth ih =>
    rw [filesBelow_succ] at h
    obtain ⟨⟨name, e⟩, hmem, h⟩ := List.mem_flatMap.1 h
    have hentry := mem_children.1 hmem
    have hname := htree.isName_of_entry? hentry
    dsimp only at h
    unfold filesAt at h
    split at h
    · cases h
    · cases e with
      | file content =>
        dsimp only at h
        split at h
        · rename_i hsource
          obtain rfl := List.mem_singleton.1 h
          exact ⟨dir, q, name, content, rfl, hleads, hname, hentry, hsource⟩
        · cases h
      | directory => exact ih (hleads.join hname hentry) h
      | link target => cases h

include htree hgrown hplain hunread in
theorem readText_eq_of_mem_filesBelow {depth : Nat} {f : Filter} (hleads : t.LeadsTo dir q)
    (h : p ∈ filesBelow t depth f dir q) : w.readText p = t.readText p := by
  obtain ⟨dir, q, name, content, rfl, hleads, hname, hentry, hsource⟩ :=
    exists_join_of_mem_filesBelow htree hleads h
  have hout : q ++ [name] ∉ A := by
    intro hmem
    rw [Language.isSource_join hname, (hunread q name hmem).2.1] at hsource
    cases hsource
  have hleads' := hleads.mono (hgrown.keeps hplain) hgrown.working
  rw [FileTree.readText, FileTree.readText, hleads.readBytes_join hname hentry,
    hleads'.readBytes_join hname (hgrown.entry?_eq hout hentry)]

omit htree hgrown hplain hplain' hunread in
theorem ofFile_eq (h : w.readText p = t.readText p) (o : Options) :
    Report.ofFile w o p = Report.ofFile t o p := by
  rw [Report.ofFile, Report.ofFile, analyzeFile, analyzeFile, h]

omit htree hgrown hplain hplain' hunread in
theorem run_eq_of_discover {files : List Path} (ht : discover t o root = .ok files)
    (hw : discover w o root = .ok files) (h : ∀ p ∈ files, w.readText p = t.readText p) :
    run w o root = run t o root := by
  have hreports : reports w o files = reports t o files :=
    List.map_congr_left fun p hp => ofFile_eq (h p hp) o
  rw [run, run, ht, hw]
  dsimp only
  rw [hreports]

omit htree hgrown hplain hplain' hunread in
theorem run_eq_of_file {content : ByteArray} (hreads : ReadsAlike o root t w)
    (hsource : Language.isSource root = true)
    (hresolve : t.resolve true root = .ok (q, some (.file content))) :
    run w o root = run t o root := by
  have hread : t.readBytes root = .ok content := by rw [FileTree.readBytes, hresolve]
  have hread' := hreads.file hsource content hread
  obtain ⟨q', hresolve'⟩ := FileTree.exists_resolve_of_readBytes hread'
  have hdiscover : discover t o root = .ok [root] := by
    rw [discover, hresolve]
    exact if_pos hsource
  have hdiscover' : discover w o root = .ok [root] := by
    rw [discover, hresolve']
    exact if_pos hsource
  refine run_eq_of_discover hdiscover hdiscover' fun p hp => ?_
  obtain rfl := List.mem_singleton.1 hp
  rw [FileTree.readText, FileTree.readText, hread, hread']

omit htree hgrown hplain hplain' hunread in
theorem start_eq (hreads : ReadsAlike o root t w)
    (hresolve : t.resolve true root = .ok (place, some .directory)) :
    Filter.start w o root place = Filter.start t o root place := by
  cases hrespect : o.respectIgnore with
  | false => simp [Filter.start, hrespect]
  | true =>
    have hrules := hreads.rules hrespect place hresolve
    have habove : Surroundings.above w root place = Surroundings.above t root place := by
      rw [Surroundings.above, Surroundings.above]
      congr 1
      exact List.map_congr_left fun q hq => hrules _ (.above hq)
    simp [Filter.start, habove]

include htree hgrown hplain hplain' hunread in
theorem run_eq_of_directory (hreads : ReadsAlike o root t w)
    (hresolve : t.resolve true root = .ok (place, some .directory)) :
    run w o root = run t o root := by
  have hleads := FileTree.leadsTo_of_resolve hresolve
  have hdirectory := htree.directory_of_leadsTo hleads
  have hne : root.text ≠ "" := by
    intro hempty
    simp [FileTree.resolve, hempty] at hresolve
  have hresolve' :=
    (hleads.mono (hgrown.keeps hplain) hgrown.working).resolve_of_ne_empty hne
  have hrules : (Filter.start t o root place).ignored.isSome = true → ∀ dir,
      Consulted t root place dir → Directory.read w dir = Directory.read t dir := by
    intro hsome
    apply hreads.rules _ place hresolve
    by_contra hrespect
    simp [Filter.start, hrespect] at hsome
  rw [← List.append_nil place] at hdirectory
  have hdepth : t.entries.size < depthBound t + (place ++ []).length := by
    rw [depthBound]
    omega
  have hdepth' : w.entries.size < depthBound w + (place ++ []).length := by
    rw [depthBound]
    omega
  have hfiles := filesBelow_eq htree hgrown hplain hplain' hunread hrules hdirectory hdepth hdepth'
  rw [List.append_nil, List.foldl_nil] at hfiles
  apply run_eq_of_discover
  · rw [discover, hresolve]
  · rw [discover, hresolve']
    dsimp only
    rw [start_eq hreads hresolve, hfiles]
  · intro p hp
    have hfound := (List.mem_mergeSort.1 hp)
    exact readText_eq_of_mem_filesBelow htree hgrown hplain hunread hleads hfound

include htree hgrown hplain hplain' hunread in
/-- A survey that finds something finds the same after a tree has grown in places that it does not
look at. -/
theorem run_eq (hreads : ReadsAlike o root t w) {a : Aggregation}
    (h : (run t o root).1 = .ok a) : run w o root = run t o root := by
  cases hresolve : t.resolve true root with
  | error e => simp [run, discover, hresolve] at h
  | ok r =>
    obtain ⟨place, e⟩ := r
    rcases e with _ | (content | _ | target)
    · simp [run, discover, hresolve] at h
    · apply run_eq_of_file hreads _ hresolve
      by_contra hother
      simp [run, discover, hresolve, hother] at h
    · exact run_eq_of_directory htree hgrown hplain hplain' hunread hreads hresolve
    · -- a link at the end is followed
      exact absurd (FileTree.resolveFrom_of_resolve hresolve) (FileTree.ne_link_of_resolveFrom target)

end Below

end Survey

end CallAtlas
