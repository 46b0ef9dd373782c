import CallAtlas.Proofs.Python.Preorder
import CallAtlas.Proofs.Survey.Contributions
import Mathlib.Data.List.DropRight
/-!
# Modules of relative imports

The module of a relative import is what stands behind the first dots of its text and the white space
after these. So the dots are left out if they stand together, and an import that has no name behind
them is skipped. Dots that stand apart stay in the module, and so does a blank that is no white space.
-/

namespace CallAtlas.Python.Tree

/-- A character that may separate dots and names. -/
def isGap (c : Char) : Bool := Text.isSpace c || isBlank c

/-- A dotted name or nothing: no dot or gap at the start and no white space at the end. -/
structure IsNameText (name : List Char) : Prop where
  start : ∀ c ∈ name.head?, c ≠ '.' ∧ ¬ isGap c
  finish : ∀ c ∈ name.getLast?, ¬ Text.isSpace c

def behindDots (text : List Char) : List Char :=
  (text.dropWhile (· == '.')).dropWhile Text.isSpace

variable {p name : List Char} {c : Char}

theorem behindDots_append (hname : IsNameText name) :
    behindDots (p ++ name) = behindDots p ++ name := by
  have hdot : ∀ c ∈ name.head?, ¬ (c == '.') := by
    intro c hc
    simpa using (hname.start c hc).1
  have hspace : ∀ c ∈ name.head?, ¬ Text.isSpace c := by
    intro c hc h
    exact (hname.start c hc).2 (by simp [isGap, h])
  rw [behindDots, dropWhile_append_of_head hdot, dropWhile_append_of_head hspace]
  rfl

theorem mem_of_mem_behindDots (h : c ∈ behindDots p) : c ∈ p :=
  (List.dropWhile_suffix _).subset ((List.dropWhile_suffix _).subset h)

theorem not_isSpace_of_behindDots {rest : List Char} (h : behindDots p = c :: rest) :
    ¬ Text.isSpace c := by
  have hhead := List.head?_dropWhile_not Text.isSpace (p.dropWhile (· == '.'))
  rw [← behindDots, h] at hhead
  simpa using hhead

/-- Nothing is left behind dots that stand together. -/
theorem behindDots_eq_nil_iff :
    behindDots p = [] ↔
      ∃ k gap, p = List.replicate k '.' ++ gap ∧ ∀ c ∈ gap, Text.isSpace c := by
  constructor
  · intro h
    have hdots : p.takeWhile (· == '.') = .replicate (p.takeWhile (· == '.')).length '.' := by
      apply List.eq_replicate_of_mem
      intro c hc
      simpa using List.mem_takeWhile_imp hc
    refine ⟨(p.takeWhile (· == '.')).length, p.dropWhile (· == '.'), ?_, ?_⟩
    · rw [← hdots, List.takeWhile_append_dropWhile]
    · exact List.dropWhile_eq_nil_iff.1 h
  · rintro ⟨k, gap, rfl, hgap⟩
    have hdots : (List.replicate k '.' ++ gap).dropWhile (· == '.') = gap.dropWhile (· == '.') := by
      apply List.dropWhile_append_of_pos
      intro c hc
      simp [List.eq_of_mem_replicate hc]
    apply List.dropWhile_eq_nil_iff.2
    intro c hc
    rw [hdots] at hc
    exact hgap c ((List.dropWhile_suffix _).subset hc)

theorem modulePath_ofList (p : List Char) :
    modulePath (String.ofList p) =
      if (behindDots p).rdropWhile Text.isSpace = [] then none
      else some (String.ofList ((behindDots p).rdropWhile Text.isSpace)) := by
  have htrim : Text.trim (p.dropWhile (· == '.')) = (behindDots p).rdropWhile Text.isSpace := rfl
  simp [modulePath, htrim]

theorem modulePath_of_isNameText (hname : IsNameText name) (h : behindDots p = []) :
    modulePath (String.ofList (p ++ name)) =
      if name = [] then none else some (String.ofList name) := by
  have hend : name.rdropWhile Text.isSpace = name := by
    apply List.rdropWhile_eq_self_iff.2
    intro hne
    exact hname.finish _ (List.getLast?_eq_some_getLast hne)
  rw [modulePath_ofList, behindDots_append hname, h, List.nil_append, hend]

/-- What is left begins the module. -/
theorem modulePath_of_behindDots {rest : List Char} (h : behindDots p = c :: rest) :
    modulePath (String.ofList p) = some (String.ofList (c :: rest.rdropWhile Text.isSpace)) := by
  have hhead : ∀ d ∈ [c].head?, ¬ Text.isSpace d := by
    simpa using not_isSpace_of_behindDots h
  have hcons : (c :: rest).rdropWhile Text.isSpace = c :: rest.rdropWhile Text.isSpace := by
    rw [List.rdropWhile, List.reverse_cons, dropWhile_append_of_head hhead, List.reverse_append]
    rfl
  rw [modulePath_ofList, h, hcons, if_neg (List.cons_ne_nil _ _)]

theorem head?_of_modulePath {m : String} (h : modulePath (String.ofList p) = some m) :
    m ≠ "" ∧ m.toList.head? = (behindDots p).head? := by
  cases hbehind : behindDots p with
  | nil =>
    rw [modulePath_ofList, hbehind] at h
    cases h
  | cons c rest =>
    rw [modulePath_of_behindDots hbehind] at h
    obtain rfl := Option.some.inj h
    simp

theorem mem_head?_behindDots (hp : ∀ c ∈ p, c = '.' ∨ isGap c) (hc : c ∈ (behindDots p).head?) :
    c = '.' ∨ isBlank c ∧ ¬ Text.isSpace c := by
  obtain ⟨rest, hbehind⟩ := List.head?_eq_some_iff.1 hc
  have hmem : c ∈ behindDots p := by simp [hbehind]
  have hspace := not_isSpace_of_behindDots hbehind
  rcases hp c (mem_of_mem_behindDots hmem) with hdot | hgap
  · exact .inl hdot
  · rw [isGap, Bool.or_eq_true] at hgap
    exact .inr ⟨hgap.resolve_left hspace, hspace⟩

theorem exists_modulePath_of_head? (hname : IsNameText name) (hc : c ∈ (behindDots p).head?) :
    ∃ m, modulePath (String.ofList (p ++ name)) = some m ∧ m.toList.head? = some c := by
  obtain ⟨rest, hbehind⟩ := List.head?_eq_some_iff.1 hc
  have happend : behindDots (p ++ name) = c :: (rest ++ name) := by
    rw [behindDots_append hname, hbehind, List.cons_append]
  exact ⟨_, modulePath_of_behindDots happend, by simp⟩

theorem modulePath_eq_name_iff (hp : ∀ c ∈ p, c = '.' ∨ isGap c) (hname : IsNameText name) :
    modulePath (String.ofList (p ++ name)) =
      (if name = [] then none else some (String.ofList name)) ↔ behindDots p = [] := by
  constructor
  · intro hmodule
    cases hbehind : behindDots p with
    | nil => rfl
    | cons c rest =>
      have hc : c ∈ (behindDots p).head? := by simp [hbehind]
      obtain ⟨m, hm, hhead⟩ := exists_modulePath_of_head? hname hc
      rw [hm] at hmodule
      split at hmodule
      · cases hmodule
      · -- the module would be the name, which begins otherwise
        obtain rfl := Option.some.inj hmodule
        rw [String.toList_ofList] at hhead
        obtain ⟨hdot, hgap⟩ := hname.start c hhead
        rcases mem_head?_behindDots hp hc with rfl | hblank
        · exact absurd rfl hdot
        · exact absurd (by simp [isGap, hblank.1]) hgap
  · exact modulePath_of_isNameText hname

theorem construct_eq_importFrom {t : Tree} {m : String} {names : List ImportedName}
    (h : t.construct = .importFrom (some m) names) :
    (t.kind = .importFromStatement ∧
        ∃ source ∈ t.importSource.1, modulePath source.text = some m) ∨
      t.kind = .futureImportStatement ∧ m = "__future__" := by
  unfold construct at h
  split at h
  · cases h
  · rename_i hkind
    obtain ⟨hsource, -⟩ := Construct.importFrom.inj h
    obtain ⟨source, hmem, hpath⟩ := Option.bind_eq_some_iff.1 hsource
    exact .inl ⟨hkind, source, hmem, hpath⟩
  · rename_i hkind
    obtain ⟨hsource, -⟩ := Construct.importFrom.inj h
    exact .inr ⟨hkind, (Option.some.inj hsource).symm⟩
  · split at h
    · cases h
    · cases h
  · split at h
    · cases h
    · cases h
  · cases h
  · cases h
  · split at h
    · cases h
    · cases h
  · cases h

/-- The node is an import from a module, and the dots in its text stand apart. -/
def HasDotsApart (t : Tree) : Prop :=
  t.kind = .importFromStatement ∧
    ∃ source ∈ t.importSource.1, (behindDots source.chars).head? = some '.'

theorem module_of_construct {t : Tree} {m : String} {names : List ImportedName}
    (h : t.construct = .importFrom (some m) names) :
    m ≠ "" ∧ (m.toList.head? = some '.' ↔ t.HasDotsApart) := by
  rcases construct_eq_importFrom h with ⟨hkind, source, hsource, hpath⟩ | ⟨hkind, rfl⟩
  · obtain ⟨hne, hhead⟩ := head?_of_modulePath hpath
    refine ⟨hne, ?_⟩
    rw [hhead]
    constructor
    · intro hdot
      exact ⟨hkind, source, hsource, hdot⟩
    · intro hapart
      obtain ⟨-, other, hother, hdot⟩ := hapart
      obtain rfl := Option.mem_unique hsource hother
      exact hdot
  · refine ⟨by decide, ?_⟩
    constructor
    · intro hdot
      exact absurd hdot (by decide)
    · intro hapart
      rw [hapart.1] at hkind
      cases hkind

theorem module_of_importSource {t source : Tree} {module : Option String} {names : List ImportedName}
    (h : t.construct = .importFrom module names) (hkind : t.kind = .importFromStatement)
    (hsource : source ∈ t.importSource.1) : module = modulePath source.text := by
  unfold construct at h
  rw [hkind] at h
  have hmodule : t.importSource.1.bind (modulePath ·.text) = module :=
    (Construct.importFrom.inj h).1
  rw [← hmodule, Option.mem_def.1 hsource]
  rfl

/-- The module of a relative import is its name, and there is none without a name, exactly if its dots
stand together with only white space behind them. Otherwise the module begins with what stands first
behind these, which is a dot or a blank. The module that an outline holds is never empty, and begins
with a dot exactly where the dots of an import stand apart; imports without a module are skipped. -/
theorem relative_import_modules (hp : ∀ c ∈ p, c = '.' ∨ isGap c) (hname : IsNameText name) :
    (modulePath (String.ofList (p ++ name)) =
        (if name = [] then none else some (String.ofList name)) ↔
      ∃ k gap, p = List.replicate k '.' ++ gap ∧ ∀ c ∈ gap, Text.isSpace c) ∧
    (∀ c ∈ (behindDots p).head?, (c = '.' ∨ isBlank c ∧ ¬ Text.isSpace c) ∧
      ∃ m, modulePath (String.ofList (p ++ name)) = some m ∧ m.toList.head? = some c) ∧
    ∀ (t : Tree) (i : Nat) (n : Tree), t.namedNodes[i]? = some n →
      ∀ module names, t.outline.construct i = .importFrom module names →
        (n.kind = .importFromStatement → ∀ source ∈ n.importSource.1, source.chars = p ++ name →
          module = modulePath (String.ofList (p ++ name))) ∧
        (module = none → ∀ c, t.outline.visit i c = (c, none)) ∧
        ∀ m ∈ module, m ≠ "" ∧ (m.toList.head? = some '.' ↔ n.HasDotsApart) := by
  refine ⟨?_, ?_, ?_⟩
  · rw [← behindDots_eq_nil_iff]
    exact modulePath_eq_name_iff hp hname
  · intro c hc
    exact ⟨mem_head?_behindDots hp hc, exists_modulePath_of_head? hname hc⟩
  · intro t i n hn module names hvisited
    have hi : i ≠ 0 := by
      rintro rfl
      rw [construct_outline hn] at hvisited
      cases hvisited
    have hconstruct := hvisited
    rw [construct_outline hn, if_neg hi] at hconstruct
    refine ⟨?_, ?_, ?_⟩
    · intro hkind source hsource htext
      rw [module_of_importSource hconstruct hkind hsource, text, htext]
    · rintro rfl c
      rw [Outline.visit, hvisited]
    · rintro m rfl
      exact module_of_construct hconstruct

theorem exists_walk_of_source {source : String} {construct : Construct}
    {edges : List (String × String)} {origin : Option String}
    (h : (Python.outline source).toOption.map (fun o => (o.construct 1,
      (o.walk defaultMaxDepth "app").toOption.map fun r =>
        (r.importGraph.edges, r.aliases.get? "x"))) = some (construct, some (edges, origin))) :
    ∃ o, Python.outline source = .ok o ∧ o.construct 1 = construct ∧
      ∃ r, o.walk defaultMaxDepth "app" = .ok r ∧ r.importGraph.edges = edges ∧
        r.aliases.get? "x" = origin := by
  obtain ⟨o, houtline, ho⟩ := Survey.exists_ok_of_toOption h
  obtain ⟨hconstruct, hresult⟩ := Prod.mk.inj ho
  obtain ⟨r, hwalk, hr⟩ := Survey.exists_ok_of_toOption hresult
  obtain ⟨hedges, horigin⟩ := Prod.mk.inj hr
  exact ⟨o, houtline, hconstruct, r, hwalk, hedges, horigin⟩

/-- Dots that stand apart make a module, which is imported and gives names their origin. The same dots
together are skipped. -/
theorem spacedDots_not_skipped :
    (∃ o, Python.outline "from . . import x\n" = .ok o ∧
      o.construct 1 = .importFrom (some ".") [⟨"x", none⟩] ∧
      ∃ r, o.walk defaultMaxDepth "app" = .ok r ∧ r.importGraph.edges = [("app", ".")] ∧
        r.aliases.get? "x" = some "..x") ∧
    ∃ o, Python.outline "from .. import x\n" = .ok o ∧
      o.construct 1 = .importFrom none [⟨"x", none⟩] ∧
      ∃ r, o.walk defaultMaxDepth "app" = .ok r ∧ r.importGraph.edges = [] ∧
        r.aliases.get? "x" = none := by
  constructor
  · apply exists_walk_of_source
    decide +kernel
  · apply exists_walk_of_source
    decide +kernel

/-- The tree of `from . .pkg import x`. -/
def spacedImport : Tree :=
  let token (kind : Kind) (blank text : String) : Tree := .leaf kind 0 blank.toList text.toList
  .branch .module [.branch .importFromStatement [token .symbol "" "from",
    .branch .relativeImport [
      .branch .importDots [token .symbol " " ".", token .symbol " " "."],
      .branch .dottedName [token .identifier "" "pkg"]],
    token .symbol " " "import", .branch .dottedName [token .identifier " " "x"]]]

theorem relative_import_modules_spacedImport :
    modulePath "..\t pkg.sub" = some "pkg.sub" ∧ modulePath ". ." ≠ none ∧
      ∃ n, spacedImport.namedNodes[1]? = some n ∧ n.HasDotsApart ∧
        spacedImport.outline.construct 1 = .importFrom (some ".pkg") [⟨"x", none⟩] := by
  have hempty : IsNameText [] := ⟨by simp, by simp⟩
  have hname : IsNameText "pkg.sub".toList :=
    ⟨by simp [isGap, isBlank, Text.isSpace], by simp [Text.isSpace]⟩
  have htogether : ∀ c ∈ "..\t ".toList, c = '.' ∨ isGap c := by simp [isGap, Text.isSpace]
  have hapart : ∀ c ∈ ". .".toList, c = '.' ∨ isGap c := by simp [isGap, Text.isSpace]
  obtain ⟨-, hkept, hnode⟩ := relative_import_modules hapart hempty
  refine ⟨?_, ?_, _, rfl, ?_⟩
  · obtain ⟨hmodule, -⟩ := relative_import_modules htogether hname
    exact hmodule.2 ⟨2, ['\t', ' '], by decide, by simp [Text.isSpace]⟩
  · obtain ⟨-, m, hm, -⟩ := hkept '.' rfl
    intro hnone
    rw [List.append_nil, String.ofList_toList, hnone] at hm
    cases hm
  · have hconstruct : spacedImport.outline.construct 1 =
        .importFrom (some ".pkg") [⟨"x", none⟩] := (construct_outline rfl).trans (by decide)
    obtain ⟨-, -, hmodule⟩ := hnode spacedImport 1 _ rfl _ _ hconstruct
    exact ⟨(hmodule ".pkg" rfl).2.1 (by decide), hconstruct⟩

end CallAtlas.Python.Tree
