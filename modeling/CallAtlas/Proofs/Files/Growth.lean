import CallAtlas.Proofs.Files.Writing
import CallAtlas.Proofs.Ordered.Extensionality
/-!
# Trees that grow

Creating directories adds directories and nothing else. What is created depends only on the directories
and links along the path, so that trees that are the same apart from some files gain the same
directories.
-/

namespace CallAtlas.FileTree

open Files (Fault)
open CallAtlas.Path (isStep IsName)

variable {t t' u u' w : FileTree} {A : List Place} {p : Path} {place q : Place} {name : String}
variable {links left : Nat} {goal : Place} {segments : List String} {ps : List Path}

/-! ### Relations between trees -/

/-- Apart from some places, a tree differs from an earlier one by new directories only. -/
structure Grown (A : List Place) (t u : FileTree) : Prop where
  working : u.working = t.working
  entry?_eq_or : ∀ q ∉ A,
    u.entry? q = t.entry? q ∨ t.entry? q = none ∧ u.entry? q = some .directory

/-- Two trees are the same apart from some places. -/
structure SameApart (A : List Place) (t u : FileTree) : Prop where
  working : u.working = t.working
  get?_eq : ∀ q ∉ A, u.entries.get? q = t.entries.get? q

/-- There are only files, if anything, at some places. -/
def PlainAt (A : List Place) (t : FileTree) : Prop := ∀ q ∈ A, t.IsPlainAt q

namespace Grown

theorem refl (A : List Place) (t : FileTree) : Grown A t t := ⟨rfl, fun _ _ => .inl rfl⟩

theorem trans (h : Grown A t u) (h' : Grown A u w) : Grown A t w := by
  refine ⟨h'.working.trans h.working, fun q hq => ?_⟩
  rcases h'.entry?_eq_or q hq with hw | ⟨hu, hw⟩
  · rw [hw]
    exact h.entry?_eq_or q hq
  · rcases h.entry?_eq_or q hq with heq | ⟨-, hdirectory⟩
    · exact .inr ⟨heq ▸ hu, hw⟩
    · rw [hu] at hdirectory
      cases hdirectory

theorem mono {B : List Place} (h : Grown A t u) (hsub : A ⊆ B) : Grown B t u :=
  ⟨h.working, fun q hq => h.entry?_eq_or q fun hmem => hq (hsub hmem)⟩

theorem entry?_eq (h : Grown A t u) (hq : q ∉ A) {e : Entry} (hentry : t.entry? q = some e) :
    u.entry? q = some e := by
  rcases h.entry?_eq_or q hq with heq | ⟨hnone, -⟩
  · rw [heq, hentry]
  · rw [hnone] at hentry
    cases hentry

theorem entry?_of_ne (h : Grown A t u) (hq : q ∉ A) (hne : u.entry? q ≠ some .directory) :
    t.entry? q = u.entry? q := by
  rcases h.entry?_eq_or q hq with heq | ⟨-, hdirectory⟩
  · exact heq.symm
  · exact absurd hdirectory hne

theorem keeps (h : Grown A t u) (hplain : PlainAt A t) : t.Keeps u := by
  constructor
  · intro q hq
    refine h.entry?_eq (fun hmem => ?_) hq
    rcases hplain q hmem with hnone | ⟨content, hfile⟩ <;> simp_all
  · intro q target hq
    exact h.entry?_eq (fun hmem => (hplain q hmem).ne_link target hq) hq

theorem isPlainAt (h : Grown [] t u) (hplain : u.IsPlainAt q) : t.IsPlainAt q := by
  have heq := h.entry?_of_ne List.not_mem_nil hplain.ne_directory
  rwa [IsPlainAt, heq]

theorem ne_link (h : Grown [] t u) {target : String} (hlink : t.entry? q ≠ some (.link target)) :
    u.entry? q ≠ some (.link target) := by
  rcases h.entry?_eq_or q List.not_mem_nil with heq | ⟨-, hdirectory⟩
  · rwa [heq]
  · simp [hdirectory]

theorem keeps_of_nil (h : Grown [] t u) : t.Keeps u := h.keeps fun _ hq => nomatch hq

end Grown

namespace SameApart

theorem entry?_eq (h : SameApart A t u) (hq : q ∉ A) : u.entry? q = t.entry? q := by
  rw [FileTree.entry?, FileTree.entry?, h.get?_eq q hq]

theorem grown (h : SameApart A t u) : Grown A t u :=
  ⟨h.working, fun _ hq => .inl (h.entry?_eq hq)⟩

theorem put (h : SameApart A t u) (q : Place) (e : Entry) :
    SameApart A (t.put q e) (u.put q e) := by
  refine ⟨h.working, fun x hx => ?_⟩
  rw [FileTree.put, FileTree.put, OrderedMap.get?_insert, OrderedMap.get?_insert, h.get?_eq x hx]

theorem trans (h : SameApart A t u) (h' : SameApart A u w) : SameApart A t w :=
  ⟨h'.working.trans h.working, fun q hq => (h'.get?_eq q hq).trans (h.get?_eq q hq)⟩

theorem of_put (hmem : q ∈ A) (e : Entry) : SameApart A t (t.put q e) := by
  refine ⟨rfl, fun x hx => ?_⟩
  rw [FileTree.put, OrderedMap.get?_insert, if_neg]
  rintro rfl
  exact hx hmem

theorem of_drop (hmem : q ∈ A) : SameApart A t (t.drop q) := by
  refine ⟨rfl, fun x hx => OrderedMap.get?_erase_ne ?_⟩
  rintro rfl
  exact hx hmem

/-- What stands at the first of the places is the same when it has been put there. -/
theorem put_head (h : SameApart (q :: A) t u) (e : Entry) :
    SameApart A (t.put q e) (u.put q e) := by
  refine ⟨h.working, fun x hx => ?_⟩
  rw [FileTree.put, FileTree.put, OrderedMap.get?_insert, OrderedMap.get?_insert]
  by_cases hxq : x = q
  · rw [if_pos hxq, if_pos hxq]
  · rw [if_neg hxq, if_neg hxq, h.get?_eq x (by simp [hxq, hx])]

theorem drop_head (h : SameApart (q :: A) t u) : SameApart A (t.drop q) (u.drop q) := by
  refine ⟨h.working, fun x hx => ?_⟩
  rw [drop, drop]
  by_cases hxq : x = q
  · rw [hxq, OrderedMap.get?_erase_self, OrderedMap.get?_erase_self]
  · rw [OrderedMap.get?_erase_ne hxq, OrderedMap.get?_erase_ne hxq,
      h.get?_eq x (by simp [hxq, hx])]

theorem eq (h : SameApart [] t u) : u = t :=
  FileTree.ext (OrderedMap.ext_of_get? fun q => h.get?_eq q List.not_mem_nil) h.working

/-- Where a tree that has grown offers a way past the places, both trees follow it as far. -/
theorem resolveFrom_eq (h : SameApart A t t') (hgrown : Grown [] t w) (hplain : PlainAt A w)
    (hwalks : Walks w links place segments left goal) (follow : Bool) :
    t'.resolveFrom follow links place segments = t.resolveFrom follow links place segments := by
  induction hwalks with
  | done => rw [resolveFrom, resolveFrom]
  | stay hsegment _ ih => rw [resolveFrom_stay hsegment, resolveFrom_stay hsegment, ih]
  | up _ ih => rw [resolveFrom, resolveFrom, ih]
  | @down links left place goal name rest hstep hparent hentry _ ih =>
    have hout : place ++ [name] ∉ A := fun hmem => (hplain _ hmem).ne_directory hentry
    -- the directory was there before, or neither tree has anything here
    rcases hgrown.entry?_eq_or (place ++ [name]) List.not_mem_nil with heq | ⟨hnone, -⟩
    · rw [heq] at hentry
      rw [resolveFrom_down hstep hparent follow hentry,
        resolveFrom_down hstep hparent follow ((h.entry?_eq hout).trans hentry), ih]
    · rw [resolveFrom_none hstep hparent follow hnone,
        resolveFrom_none hstep hparent follow ((h.entry?_eq hout).trans hnone)]
  | @follow links left place goal name target rest hstep hparent hentry htarget _ ih =>
    have hout : place ++ [name] ∉ A := fun hmem => (hplain _ hmem).ne_link target hentry
    -- only directories are new
    have hlink : t.entry? (place ++ [name]) = some (.link target) := by
      rw [hgrown.entry?_of_ne List.not_mem_nil (by simp [hentry]), hentry]
    have hlink' := (h.entry?_eq hout).trans hlink
    cases hends : (rest.isEmpty && !follow) with
    | true => rw [resolveFrom_link hstep hparent follow hlink hends,
        resolveFrom_link hstep hparent follow hlink' hends]
    | false => rw [resolveFrom_follow hstep hparent follow hlink htarget hends,
        resolveFrom_follow hstep hparent follow hlink' htarget hends, ih]

theorem resolve_eq (h : SameApart A t t') (hgrown : Grown [] t w) (hplain : PlainAt A w)
    (hleads : w.LeadsTo p place) (follow : Bool) : t'.resolve follow p = t.resolve follow p := by
  obtain ⟨left, hwalks⟩ := hleads
  have hstart : w.start p = t.start p := by rw [start, start, hgrown.working]
  rw [hstart] at hwalks
  have hfrom := h.resolveFrom_eq hgrown hplain hwalks follow
  unfold resolve
  rw [h.working]
  split
  · rfl
  · exact hfrom

end SameApart

/-! ### Files in a directory -/

theorem get?_entries (hne : q ≠ []) (t : FileTree) : t.entries.get? q = t.entry? q :=
  (if_neg (by simpa using hne)).symm

theorem entry?_drop (hne : q ≠ []) (t : FileTree) (x : Place) :
    entry? (t.drop q) x = if x = q then none else t.entry? x := by
  by_cases hx : x = []
  · rw [hx, if_neg hne.symm]
    rfl
  · rw [← get?_entries hx, ← get?_entries hx, drop]
    split
    · rename_i heq
      rw [heq, OrderedMap.get?_erase_self]
    · rename_i hxq
      exact OrderedMap.get?_erase_ne hxq

theorem put_eq_self {e : Entry} (hne : q ≠ []) (h : t.entry? q = some e) : t.put q e = t := by
  refine FileTree.ext (OrderedMap.ext_of_get? fun x => ?_) rfl
  rw [put, OrderedMap.get?_insert]
  split
  · rename_i heq
    rw [heq, get?_entries hne, h]
  · rfl

theorem drop_eq_self (hne : q ≠ []) (h : t.entry? q = none) : t.drop q = t := by
  refine FileTree.ext (OrderedMap.ext_of_get? fun x => ?_) rfl
  rw [drop]
  by_cases hx : x = q
  · rw [hx, OrderedMap.get?_erase_self, get?_entries hne, h]
  · exact OrderedMap.get?_erase_ne hx

theorem IsPlainAt.put_file {q' : Place} (h : t.IsPlainAt q) (h' : t.IsPlainAt q')
    (content : ByteArray) : (t.put q' (.file content)).IsPlainAt q := by
  rw [IsPlainAt, entry?_put h'.ne_nil]
  split
  · exact .inr ⟨content, rfl⟩
  · exact h

theorem IsPlainAt.drop {q' : Place} (h : t.IsPlainAt q) (hne : q' ≠ []) :
    (t.drop q').IsPlainAt q := by
  rw [IsPlainAt, entry?_drop hne]
  split
  · exact .inl rfl
  · exact h

theorem IsPlainAt.of_put {q' : Place} {e : Entry} (h : (t.put q' e).IsPlainAt q)
    (h' : t.IsPlainAt q') (hne : q ≠ q') : t.IsPlainAt q := by
  rwa [IsPlainAt, entry?_put h'.ne_nil, if_neg hne] at h

theorem LeadsTo.put_of_writeText {text : String} (h : t.LeadsTo p place) (hname : IsName name)
    (hlink : ∀ target, t.entry? (place ++ [name]) ≠ some (.link target))
    (hwrite : t.writeText (p.join name) text = .ok u) :
    t.IsPlainAt (place ++ [name]) ∧ u = t.put (place ++ [name]) (.file text.toUTF8) := by
  have hplain : t.IsPlainAt (place ++ [name]) := by
    have hresolve := h.resolve_join hname hlink true
    cases hentry : t.entry? (place ++ [name]) with
    | none => exact .inl hentry
    | some e =>
      cases e with
      | file content => exact .inr ⟨content, hentry⟩
      | link target => exact absurd hentry (hlink target)
      | directory =>
        rw [writeText, writeBytes, hresolve, hentry] at hwrite
        cases hwrite
  refine ⟨hplain, ?_⟩
  rw [h.writeText_join hname hplain] at hwrite
  exact (Except.ok.inj hwrite).symm

/-- A file can be removed from a directory, and nothing else but a link can. -/
theorem LeadsTo.removeFile_join (h : t.LeadsTo p place) (hname : IsName name)
    (hlink : ∀ target, t.entry? (place ++ [name]) ≠ some (.link target)) :
    t.removeFile (p.join name) = .ok u ↔
      (∃ content, t.entry? (place ++ [name]) = some (.file content)) ∧
        u = t.drop (place ++ [name]) := by
  rw [removeFile, removeTree, h.resolve_join hname hlink false]
  cases hentry : t.entry? (place ++ [name]) with
  | none => simp
  | some e =>
    cases e with
    | file content => simp [eq_comm]
    | link target => exact absurd hentry (hlink target)
    | directory => simp

/-- Whatever a removed file was, the directories and links that remain were there before. -/
theorem keeps_of_removeFile (h : t.removeFile p = .ok u) : u.Keeps t ∧ u.working = t.working := by
  have hdrop : ∃ q, u = t.drop q := by
    unfold removeFile removeTree at h
    split at h
    · cases h
    · rename_i hno
      split at h
      · rename_i q hdirectory
        exact absurd hdirectory (hno q)
      · rename_i q e _ _
        exact ⟨q, (Except.ok.inj h).symm⟩
      · cases h
      · cases h
  obtain ⟨q, rfl⟩ := hdrop
  have hentry : ∀ x e, entry? (t.drop q) x = some e → t.entry? x = some e := by
    intro x e hx
    by_cases hne : x = []
    · subst hne
      exact hx
    · rw [← get?_entries hne] at hx ⊢
      exact (OrderedMap.get?_erase_eq_some.1 hx).2
  exact ⟨⟨fun x => hentry x _, fun x target => hentry x _⟩, rfl⟩

/-! ### Creating directories -/

theorem exists_put_of_createDirectory (h : t.createDirectory p = .ok u) :
    ∃ q, t.resolve false p = .ok (q, none) ∧ u = t.put q .directory := by
  unfold createDirectory at h
  split at h
  · rename_i q hresolve
    cases h
    exact ⟨q, hresolve, rfl⟩
  · cases h
  · cases h

theorem entry?_of_resolve_none {follow : Bool} (h : t.resolve follow p = .ok (q, none)) :
    t.entry? q = none :=
  entry?_of_resolveFrom (resolveFrom_of_resolve h) (by simp)

/-- A directory that is put where a way ends in nothing completes the way. -/
theorem Walks.of_resolveFrom_none {follow : Bool}
    (h : t.resolveFrom follow links place segments = .ok (q, none)) :
    ∃ left, Walks (t.put q .directory) links place segments left q := by
  have hnone : t.entry? q = none := entry?_of_resolveFrom h (by simp)
  have hplain : t.IsPlainAt q := .inl hnone
  have hkeeps := hplain.keeps_put .directory
  have hthere : entry? (t.put q .directory) q = some .directory := by
    rw [entry?_put hplain.ne_nil, if_pos rfl]
  fun_induction resolveFrom t follow links place segments with
  | case2 links place rest ih =>
    obtain ⟨left, hwalks⟩ := ih h
    exact ⟨left, .stay rfl hwalks⟩
  | case3 links place rest ih =>
    obtain ⟨left, hwalks⟩ := ih h
    exact ⟨left, .stay rfl hwalks⟩
  | case4 links place rest ih =>
    obtain ⟨left, hwalks⟩ := ih h
    exact ⟨left, .up hwalks⟩
  | case5 links place name rest hempty hdot hparent here hentry hrest =>
    have hq : q = place ++ [name] := (Prod.mk.inj (Except.ok.inj h)).1.symm
    subst hq
    have hidle : ∀ segment ∈ rest, ¬isStep segment = true := by
      intro segment hsegment
      have hblank : segment = "" := by simpa using List.all_eq_true.1 hrest segment hsegment
      simp [hblank, isStep]
    refine ⟨links, .down (isStep_of_ne hempty hdot) hparent hthere ?_⟩
    simpa using Walks.prepend hidle .done
  | case7 links place name rest hempty hdot hparent here hentry ih =>
    obtain ⟨left, hwalks⟩ := ih h
    exact ⟨left, .down (isStep_of_ne hempty hdot) hparent (hkeeps.directory here hentry) hwalks⟩
  | case13 place name rest hempty hdot hparent here target hentry _ links htarget ih =>
    obtain ⟨left, hwalks⟩ := ih h
    exact ⟨left, .follow (isStep_of_ne hempty hdot) hparent (hkeeps.link here target hentry)
      (by simpa using htarget) hwalks⟩
  | _ => simp at h

theorem grown_of_createDirectory (h : t.createDirectory p = .ok u) :
    Grown [] t u ∧ ∃ q, u.LeadsTo p q := by
  obtain ⟨q, hresolve, rfl⟩ := exists_put_of_createDirectory h
  have hnone := entry?_of_resolve_none hresolve
  have hplain : t.IsPlainAt q := .inl hnone
  constructor
  · refine ⟨rfl, fun x _ => ?_⟩
    rw [entry?_put hplain.ne_nil]
    by_cases hx : x = q
    · exact .inr ⟨hx ▸ hnone, by rw [if_pos hx]⟩
    · exact .inl (by rw [if_neg hx])
  · obtain ⟨left, hwalks⟩ := Walks.of_resolveFrom_none (resolveFrom_of_resolve hresolve)
    exact ⟨q, left, hwalks⟩

theorem exists_leadsTo_of_hasDirectory (h : t.hasDirectory p = true) : ∃ q, t.LeadsTo p q := by
  unfold hasDirectory find? at h
  split at h
  · rename_i hfind
    split at hfind
    · rename_i q e hresolve
      subst hfind
      exact ⟨q, leadsTo_of_resolve hresolve⟩
    · cases hfind
  · cases h

/-- What directories there are when the first of some directories is to be created: it is nothing but
the working directory, or it can be created at once, or once those that it needs are there, or it is
there. -/
theorem createWithin_cons_eq_ok_iff {above : List Path} :
    t.createWithin (p :: above) = .ok u ↔
      p.text.isEmpty = true ∧ t = u ∨
        p.text.isEmpty = false ∧
          (t.createDirectory p = .ok u ∨
            (∃ v, t.createDirectory p = .error .notFound ∧ t.createWithin above = .ok v ∧
              (v.createDirectory p = .ok u ∨
                (∃ e, v.createDirectory p = .error e) ∧ v.hasDirectory p = true ∧ v = u)) ∨
            (∃ e, t.createDirectory p = .error e ∧ e ≠ .notFound) ∧ t.hasDirectory p = true ∧
              t = u) := by
  have hgoes : ∀ (there : Bool) (v : FileTree) (e : Fault),
      (if there then .ok v else .error e : Except Fault FileTree) = .ok u ↔
        there = true ∧ v = u := by
    intro there v e
    cases there <;> simp
  rw [createWithin]
  cases hempty : p.text.isEmpty with
  | true => simp
  | false =>
    cases hfirst : t.createDirectory p with
    | ok v => simp
    | error e =>
      by_cases he : e = .notFound
      · subst he
        cases habove : t.createWithin above with
        | error e => simp [bind, Except.bind]
        | ok v =>
          cases hagain : v.createDirectory p with
          | ok w => simp [bind, Except.bind, hagain]
          | error e => simp [bind, Except.bind, hagain, hgoes]
      · simp [he, hgoes]

theorem grown_of_createWithin (h : t.createWithin ps = .ok u) :
    Grown [] t u ∧ ∀ p ∈ ps.head?, ∃ q, u.LeadsTo p q := by
  induction ps generalizing t u with
  | nil => cases h
  | cons p above ih =>
    simp only [List.head?_cons, Option.mem_some_iff, forall_eq']
    rcases createWithin_cons_eq_ok_iff.1 h with ⟨hempty, rfl⟩ |
      ⟨-, hcreate | ⟨v, -, habove, hcreate | ⟨-, hthere, rfl⟩⟩ | ⟨-, hthere, rfl⟩⟩
    · obtain ⟨text⟩ := p
      obtain rfl : text = "" := by simpa using hempty
      exact ⟨.refl [] t, _, t.leadsTo_empty⟩
    · exact grown_of_createDirectory hcreate
    · obtain ⟨hgrown, hleads⟩ := grown_of_createDirectory hcreate
      exact ⟨(ih habove).1.trans hgrown, hleads⟩
    · exact ⟨(ih habove).1, exists_leadsTo_of_hasDirectory hthere⟩
    · exact ⟨.refl [] t, exists_leadsTo_of_hasDirectory hthere⟩

theorem grown_of_createDirectories (h : t.createDirectories p = .ok u) :
    Grown [] t u ∧ ∃ q, u.LeadsTo p q := by
  obtain ⟨hgrown, hleads⟩ := grown_of_createWithin h
  exact ⟨hgrown, hleads p rfl⟩

/-! ### Creating the same directories -/

namespace SameApart

section Directory
variable (h : SameApart A t t') (hgrown : Grown [] t w) (hplain : PlainAt A w)
variable (hleads : w.LeadsTo p place)
include h hgrown hplain hleads

theorem hasDirectory_eq : t'.hasDirectory p = t.hasDirectory p := by
  rw [hasDirectory, hasDirectory, find?, find?, h.resolve_eq hgrown hplain hleads]

theorem createDirectory_error {e : Fault} (hcreate : t.createDirectory p = .error e) :
    t'.createDirectory p = .error e := by
  unfold createDirectory at hcreate ⊢
  rw [h.resolve_eq hgrown hplain hleads]
  split at hcreate
  · cases hcreate
  · exact hcreate
  · exact hcreate

theorem createDirectory_ok (hcreate : t.createDirectory p = .ok u) (hlater : Grown [] u w) :
    ∃ u', t'.createDirectory p = .ok u' ∧ SameApart A u u' ∧ (PlainAt A t' → PlainAt A u') := by
  obtain ⟨q, hresolve, rfl⟩ := exists_put_of_createDirectory hcreate
  have hfree : t.IsPlainAt q := .inl (entry?_of_resolve_none hresolve)
  refine ⟨t'.put q .directory, ?_, h.put q .directory, fun hplain' x hx => ?_⟩
  · rw [createDirectory, h.resolve_eq hgrown hplain hleads, hresolve]
  · -- the new directory stays, so that it is at none of the places
    have hne : x ≠ q := by
      rintro rfl
      refine (hplain x hx).ne_directory (hlater.entry?_eq List.not_mem_nil ?_)
      rw [entry?_put hfree.ne_nil, if_pos rfl]
    rw [IsPlainAt, entry?_put hfree.ne_nil, if_neg hne]
    exact hplain' x hx

end Directory

theorem createWithin (h : SameApart A t t') (hcreate : t.createWithin ps = .ok u)
    (hplain : PlainAt A u) :
    ∃ u', t'.createWithin ps = .ok u' ∧ SameApart A u u' ∧ (PlainAt A t' → PlainAt A u') := by
  induction ps generalizing t t' u with
  | nil => cases hcreate
  | cons p above ih =>
    obtain ⟨hgrown, hleads⟩ := grown_of_createWithin hcreate
    -- the way on which both trees are followed is the one to the directory in the end
    obtain ⟨place, hleads⟩ := hleads p rfl
    obtain ⟨hempty, rfl⟩ | ⟨hne, hcases⟩ := createWithin_cons_eq_ok_iff.1 hcreate
    · exact ⟨t', createWithin_cons_eq_ok_iff.2 (.inl ⟨hempty, rfl⟩), h, id⟩
    rcases hcases with hfound | ⟨v, hmissing, habove, hagain⟩ | ⟨⟨e, herror, hother⟩, hthere, rfl⟩
    · obtain ⟨u', hfound', hsame, hkept⟩ :=
        h.createDirectory_ok hgrown hplain hleads hfound (.refl [] u)
      exact ⟨u', createWithin_cons_eq_ok_iff.2 (.inr ⟨hne, .inl hfound'⟩), hsame, hkept⟩
    · have hmissing' := h.createDirectory_error hgrown hplain hleads hmissing
      rcases hagain with hfound | ⟨⟨e, herror⟩, hthere, rfl⟩
      · have hlater := (grown_of_createDirectory hfound).1
        obtain ⟨v', habove', hsame, hkept⟩ :=
          ih h habove fun q hq => hlater.isPlainAt (hplain q hq)
        obtain ⟨u', hfound', hsame', hkept'⟩ :=
          hsame.createDirectory_ok hlater hplain hleads hfound (.refl [] u)
        refine ⟨u', createWithin_cons_eq_ok_iff.2 (.inr ⟨hne, .inr (.inl ?_)⟩), hsame',
          fun hplain' => hkept' (hkept hplain')⟩
        exact ⟨v', hmissing', habove', .inl hfound'⟩
      · obtain ⟨v', habove', hsame, hkept⟩ := ih h habove hplain
        have herror' := hsame.createDirectory_error (.refl [] v) hplain hleads herror
        have hthere' := (hsame.hasDirectory_eq (.refl [] v) hplain hleads).trans hthere
        refine ⟨v', createWithin_cons_eq_ok_iff.2 (.inr ⟨hne, .inr (.inl ?_)⟩), hsame, hkept⟩
        exact ⟨v', hmissing', habove', .inr ⟨⟨e, herror'⟩, hthere', rfl⟩⟩
    · have herror' := h.createDirectory_error hgrown hplain hleads herror
      have hthere' := (h.hasDirectory_eq hgrown hplain hleads).trans hthere
      refine ⟨t', createWithin_cons_eq_ok_iff.2 (.inr ⟨hne, .inr (.inr ?_)⟩), h, id⟩
      exact ⟨⟨e, herror', hother⟩, hthere', rfl⟩

theorem createDirectories (h : SameApart A t t') (hcreate : t.createDirectories p = .ok u)
    (hplain : PlainAt A u) :
    ∃ u', t'.createDirectories p = .ok u' ∧ SameApart A u u' ∧ (PlainAt A t' → PlainAt A u') :=
  h.createWithin hcreate hplain

end SameApart

end CallAtlas.FileTree
