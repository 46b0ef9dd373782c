import CallAtlas.Proofs.Files.Paths
import CallAtlas.Proofs.Ordered.Lookup
/-!
# Where paths lead

`Walks` describes the way from one directory of a tree to another along segments, with the links that
may still be followed. Such a way can be gone on from, passes over segments that lead nowhere, and
stays open when entries are added. From this follows what operations on files do with a name in a
directory that a path leads to.
-/

namespace CallAtlas.FileTree

open Files (Fault)
open CallAtlas.Path (isStep IsName)

variable {t u : FileTree} {links left : Nat} {place goal : Place} {segments rest : List String}
variable {name : String} {p : Path}

/-- The directories and links of one tree stand in another one as well. -/
structure Keeps (t u : FileTree) : Prop where
  directory : ∀ q, t.entry? q = some .directory → u.entry? q = some .directory
  link : ∀ q target, t.entry? q = some (.link target) → u.entry? q = some (.link target)

theorem Keeps.trans {w : FileTree} (h : t.Keeps u) (h' : u.Keeps w) : t.Keeps w :=
  ⟨fun q hq => h'.directory q (h.directory q hq),
    fun q target hq => h'.link q target (h.link q target hq)⟩

/-- Nothing stands at a place, or a file does. -/
def IsPlainAt (t : FileTree) (q : Place) : Prop :=
  t.entry? q = none ∨ ∃ content, t.entry? q = some (.file content)

/-- Segments lead from one directory to another, and so many links may still be followed then. -/
inductive Walks (t : FileTree) : Nat → Place → List String → Nat → Place → Prop where
  | done {links : Nat} {place : Place} : Walks t links place [] links place
  | stay {links left : Nat} {place goal : Place} {segment : String} {rest : List String}
      (hsegment : isStep segment = false) (h : Walks t links place rest left goal) :
      Walks t links place (segment :: rest) left goal
  | up {links left : Nat} {place goal : Place} {rest : List String}
      (h : Walks t links place.dropLast rest left goal) :
      Walks t links place (".." :: rest) left goal
  | down {links left : Nat} {place goal : Place} {name : String} {rest : List String}
      (hstep : isStep name = true) (hparent : name ≠ "..")
      (hentry : t.entry? (place ++ [name]) = some .directory)
      (h : Walks t links (place ++ [name]) rest left goal) :
      Walks t links place (name :: rest) left goal
  | follow {links left : Nat} {place goal : Place} {name target : String} {rest : List String}
      (hstep : isStep name = true) (hparent : name ≠ "..")
      (hentry : t.entry? (place ++ [name]) = some (.link target)) (htarget : target.isEmpty = false)
      (h : Walks t links (if isRooted target then [] else place) (Path.segmentsOf target ++ rest)
        left goal) :
      Walks t (links + 1) place (name :: rest) left goal

theorem isStep_of_ne (hempty : name ≠ "") (hdot : name ≠ ".") : isStep name = true := by
  simp [isStep, hempty, hdot]

theorem ne_of_isStep (h : isStep name = true) : name ≠ "" ∧ name ≠ "." := by
  simpa [isStep] using h

theorem resolveFrom_stay (h : isStep name = false) (follow : Bool) (links : Nat) (place : Place)
    (rest : List String) :
    t.resolveFrom follow links place (name :: rest) = t.resolveFrom follow links place rest := by
  simp only [isStep, Bool.and_eq_false_iff, bne_eq_false_iff_eq] at h
  rcases h with rfl | rfl <;> rw [resolveFrom]

section Step
variable (hstep : isStep name = true) (hparent : name ≠ "..") (follow : Bool)
include hstep hparent

theorem resolveFrom_down (hentry : t.entry? (place ++ [name]) = some .directory) (links : Nat)
    (rest : List String) :
    t.resolveFrom follow links place (name :: rest) =
      t.resolveFrom follow links (place ++ [name]) rest := by
  obtain ⟨hempty, hdot⟩ := ne_of_isStep hstep
  rw [resolveFrom, hentry]
  · exact hempty
  · exact hdot
  · exact hparent

theorem resolveFrom_follow {target : String}
    (hentry : t.entry? (place ++ [name]) = some (.link target)) (htarget : target.isEmpty = false)
    (hgoes : (rest.isEmpty && !follow) = false) (links : Nat) :
    t.resolveFrom follow (links + 1) place (name :: rest) =
      t.resolveFrom follow links (if isRooted target then [] else place)
        (Path.segmentsOf target ++ rest) := by
  obtain ⟨hempty, hdot⟩ := ne_of_isStep hstep
  rw [resolveFrom, hentry]
  · simp [hgoes, htarget]
  · exact hempty
  · exact hdot
  · exact hparent

theorem resolveFrom_link {target : String}
    (hentry : t.entry? (place ++ [name]) = some (.link target))
    (hends : (rest.isEmpty && !follow) = true) (links : Nat) :
    t.resolveFrom follow links place (name :: rest) =
      .ok (place ++ [name], some (.link target)) := by
  obtain ⟨hempty, hdot⟩ := ne_of_isStep hstep
  rw [resolveFrom, hentry]
  · simp [hends]
  · exact hempty
  · exact hdot
  · exact hparent

theorem resolveFrom_none (hentry : t.entry? (place ++ [name]) = none) (links : Nat)
    (rest : List String) :
    t.resolveFrom follow links place (name :: rest) =
      if rest.all String.isEmpty then .ok (place ++ [name], none) else .error .notFound := by
  obtain ⟨hempty, hdot⟩ := ne_of_isStep hstep
  rw [resolveFrom, hentry]
  · exact hempty
  · exact hdot
  · exact hparent

theorem resolveFrom_file {content : ByteArray}
    (hentry : t.entry? (place ++ [name]) = some (.file content)) (links : Nat)
    (rest : List String) :
    t.resolveFrom follow links place (name :: rest) =
      if rest.isEmpty then .ok (place ++ [name], some (.file content))
      else .error .notDirectory := by
  obtain ⟨hempty, hdot⟩ := ne_of_isStep hstep
  rw [resolveFrom, hentry]
  · exact hempty
  · exact hdot
  · exact hparent

theorem resolveFrom_last (hlink : ∀ target, t.entry? (place ++ [name]) ≠ some (.link target))
    (links : Nat) :
    t.resolveFrom follow links place [name] = .ok (place ++ [name], t.entry? (place ++ [name])) := by
  obtain ⟨hempty, hdot⟩ := ne_of_isStep hstep
  rw [resolveFrom]
  · split
    · simp_all
    · rename_i hentry
      rw [hentry, resolveFrom]
    · simp_all
    · rename_i target hentry
      exact absurd hentry (hlink target)
  · exact hempty
  · exact hdot
  · exact hparent

end Step

namespace Walks

theorem of_resolveFrom {follow : Bool}
    (h : t.resolveFrom follow links place segments = .ok (goal, some .directory)) :
    ∃ left, Walks t links place segments left goal := by
  fun_induction resolveFrom t follow links place segments with
  | case1 links place =>
    cases h
    exact ⟨links, .done⟩
  | case2 links place rest ih =>
    obtain ⟨left, hwalks⟩ := ih h
    exact ⟨left, .stay rfl hwalks⟩
  | case3 links place rest ih =>
    obtain ⟨left, hwalks⟩ := ih h
    exact ⟨left, .stay rfl hwalks⟩
  | case4 links place rest ih =>
    obtain ⟨left, hwalks⟩ := ih h
    exact ⟨left, .up hwalks⟩
  | case7 links place name rest hempty hdot hparent here hentry ih =>
    obtain ⟨left, hwalks⟩ := ih h
    exact ⟨left, .down (isStep_of_ne hempty hdot) hparent hentry hwalks⟩
  | case13 place name rest hempty hdot hparent here target hentry _ links htarget ih =>
    obtain ⟨left, hwalks⟩ := ih h
    exact ⟨left, .follow (isStep_of_ne hempty hdot) hparent hentry (by simpa using htarget) hwalks⟩
  | _ => simp at h

/-- What lies behind the way is found from where it ends. -/
theorem resolveFrom_append (h : Walks t links place segments left goal) (follow : Bool)
    (rest : List String) (hrest : follow = true ∨ rest ≠ []) :
    t.resolveFrom follow links place (segments ++ rest) = t.resolveFrom follow left goal rest := by
  have hgoes : ∀ before, ((before ++ rest).isEmpty && !follow) = false := by
    intro before
    rcases hrest with rfl | hrest
    · simp
    · simp [hrest]
  induction h with
  | done => rfl
  | stay hsegment _ ih => rw [List.cons_append, resolveFrom_stay hsegment, ih]
  | up _ ih => rw [List.cons_append, resolveFrom, ih]
  | down hstep hparent hentry _ ih =>
    rw [List.cons_append, resolveFrom_down hstep hparent _ hentry, ih]
  | follow hstep hparent hentry htarget _ ih =>
    rw [List.cons_append, resolveFrom_follow hstep hparent _ hentry htarget (hgoes _),
      ← List.append_assoc, ih]

/-- Something stands where the way ends, also if a link there is not followed. -/
theorem exists_resolveFrom (h : Walks t links place segments left goal) (follow : Bool) :
    ∃ place' e, t.resolveFrom follow links place segments = .ok (place', some e) := by
  induction h with
  | done => exact ⟨_, .directory, by rw [resolveFrom]⟩
  | stay hsegment _ ih => rwa [resolveFrom_stay hsegment]
  | up _ ih => rwa [resolveFrom]
  | down hstep hparent hentry _ ih => rwa [resolveFrom_down hstep hparent _ hentry]
  | @follow links left place goal name target rest hstep hparent hentry htarget _ ih =>
    cases hends : (rest.isEmpty && !follow) with
    | true => exact ⟨_, .link target, resolveFrom_link hstep hparent _ hentry hends _⟩
    | false => rwa [resolveFrom_follow hstep hparent _ hentry htarget hends]

theorem prepend {idle : List String} (hidle : ∀ segment ∈ idle, ¬isStep segment = true)
    (h : Walks t links place segments left goal) :
    Walks t links place (idle ++ segments) left goal := by
  induction idle with
  | nil => exact h
  | cons segment idle ih =>
    refine .stay (by simpa using hidle segment List.mem_cons_self) ?_
    exact ih fun s hs => hidle s (List.mem_cons_of_mem segment hs)

/-- Only the segments that lead somewhere matter. -/
theorem of_filter_eq (h : Walks t links place segments left goal) {others : List String}
    (hsteps : others.filter isStep = segments.filter isStep) :
    Walks t links place others left goal := by
  induction h generalizing others with
  | done =>
    have hidle := List.filter_eq_nil_iff.1 hsteps
    rw [← List.append_nil others]
    exact .prepend hidle .done
  | stay hsegment _ ih =>
    rw [List.filter_cons_of_neg (by simp [hsegment])] at hsteps
    exact ih hsteps
  | up _ ih =>
    rw [List.filter_cons_of_pos (by decide), List.filter_eq_cons_iff] at hsteps
    obtain ⟨idle, behind, rfl, hidle, -, hbehind⟩ := hsteps
    exact .prepend hidle (.up (ih hbehind))
  | down hstep hparent hentry _ ih =>
    rw [List.filter_cons_of_pos hstep, List.filter_eq_cons_iff] at hsteps
    obtain ⟨idle, behind, rfl, hidle, -, hbehind⟩ := hsteps
    exact .prepend hidle (.down hstep hparent hentry (ih hbehind))
  | follow hstep hparent hentry htarget _ ih =>
    rw [List.filter_cons_of_pos hstep, List.filter_eq_cons_iff] at hsteps
    obtain ⟨idle, behind, rfl, hidle, -, hbehind⟩ := hsteps
    refine .prepend hidle (.follow hstep hparent hentry htarget (ih ?_))
    rw [List.filter_append, List.filter_append, hbehind]

theorem mono (h : Walks t links place segments left goal) (hkept : t.Keeps u) :
    Walks u links place segments left goal := by
  induction h with
  | done => exact .done
  | stay hsegment _ ih => exact .stay hsegment ih
  | up _ ih => exact .up ih
  | down hstep hparent hentry _ ih => exact .down hstep hparent (hkept.directory _ hentry) ih
  | follow hstep hparent hentry htarget _ ih =>
    exact .follow hstep hparent (hkept.link _ _ hentry) htarget ih

end Walks

end CallAtlas.FileTree
