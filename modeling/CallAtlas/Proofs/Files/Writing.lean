import CallAtlas.Proofs.Files.Operations
/-!
# What a write leaves behind

Whatever way a path takes, through links or not, a file that is written there is read back there. A
write, like everything that puts something in place of a file or of nothing, closes no way.
-/

namespace CallAtlas.FileTree

open Files (Fault)

variable {t u : FileTree} {follow : Bool} {links : Nat} {place q : Place} {segments : List String}
variable {p : Path} {e : Option Entry} {content : ByteArray} {text : String}

/-- Where a path leads, and what it is said to lead to, stand in the tree. -/
theorem entry?_of_resolveFrom
    (h : t.resolveFrom follow links place segments = .ok (q, e)) (hne : e ≠ some .directory) :
    t.entry? q = e := by
  fun_induction resolveFrom t follow links place segments with
  | case1 => simp_all
  | _ => simp_all

/-- A link at the end is followed. -/
theorem ne_link_of_resolveFrom (target : String) :
    t.resolveFrom true links place segments ≠ .ok (q, some (.link target)) := by
  intro h
  generalize hfollow : true = follow at h
  fun_induction resolveFrom t follow links place segments with
  | _ => simp_all

theorem isPlainAt_of_resolveFrom
    (h : t.resolveFrom true links place segments = .ok (q, e)) (hne : e ≠ some .directory) :
    t.IsPlainAt q := by
  have hentry := entry?_of_resolveFrom h hne
  rw [IsPlainAt, hentry]
  match e with
  | none => exact .inl rfl
  | some (.file content) => exact .inr ⟨content, rfl⟩
  | some .directory => exact absurd rfl hne
  | some (.link target) => exact absurd h (ne_link_of_resolveFrom target)

/-- The same way leads to a file that is put where it ends, if it still leads anywhere. -/
theorem eq_of_resolveFrom_put
    (h : t.resolveFrom true links place segments = .ok (q, e)) (hne : e ≠ some .directory)
    {q' : Place} {e' : Option Entry}
    (hput : (t.put q (.file content)).resolveFrom true links place segments = .ok (q', e')) :
    q' = q ∧ e' = some (.file content) := by
  have hplain := isPlainAt_of_resolveFrom h hne
  have hkeeps := hplain.keeps_put (.file content)
  have hfile : entry? (t.put q (.file content)) q = some (.file content) := by
    rw [entry?_put hplain.ne_nil, if_pos rfl]
  fun_induction resolveFrom t true links place segments with
  | case1 =>
    cases h
    exact absurd rfl hne
  | case2 links place rest ih => exact ih h (by rwa [resolveFrom] at hput)
  | case3 links place rest ih => exact ih h (by rwa [resolveFrom] at hput)
  | case4 links place rest ih => exact ih h (by rwa [resolveFrom] at hput)
  | case7 links place name rest hempty hdot hparent here hentry ih =>
    rw [resolveFrom_down (isStep_of_ne hempty hdot) hparent true (hkeeps.directory here hentry)]
      at hput
    exact ih h hput
  | case13 place name rest hempty hdot hparent here target hentry hgoes links htarget ih =>
    rw [resolveFrom_follow (isStep_of_ne hempty hdot) hparent true
      (hkeeps.link here target hentry) (by simpa using htarget) (by simp)] at hput
    exact ih h hput
  | case5 links place name rest hempty hdot hparent here hentry hrest
  | case8 links place name rest hempty hdot hparent here old hentry hrest =>
    have hq : q = place ++ [name] := (Prod.mk.inj (Except.ok.inj h)).1.symm
    rw [hq] at hfile hput
    rw [resolveFrom_file (isStep_of_ne hempty hdot) hparent true hfile] at hput
    by_cases hend : rest.isEmpty = true
    · rw [if_pos hend] at hput
      cases hput
      exact ⟨hq.symm, rfl⟩
    · rw [if_neg hend] at hput
      cases hput
  | case10 _ _ _ _ _ _ _ _ _ _ hgoes => simp at hgoes
  | _ => simp at h

/-! ### Writing -/

theorem resolveFrom_of_resolve {r : Place × Option Entry} (h : t.resolve follow p = .ok r) :
    t.resolveFrom follow maxLinks (t.start p) p.segments = .ok r := by
  unfold resolve at h
  split at h
  · cases h
  · exact h

/-- What a write does: a file is put where the path leads to nothing or to a file, and the path leads
to that file. -/
theorem exists_put_of_writeBytes (h : t.writeBytes p content = .ok u) :
    ∃ q, t.IsPlainAt q ∧ u = t.put q (.file content) ∧
      u.resolve true p = .ok (q, some (.file content)) := by
  unfold writeBytes at h
  split at h
  · cases h
  · rename_i q e hne hresolve
    have hbefore := resolveFrom_of_resolve hresolve
    have hplain := isPlainAt_of_resolveFrom hbefore (by simpa using hne)
    refine ⟨q, hplain, ?_⟩
    dsimp only at h
    split at h
    · rename_i hfile
      cases h
      cases hafter : (t.put q (.file content)).resolve true p with
      | error fault => simp [hasFile, find?, hafter] at hfile
      | ok r =>
        obtain ⟨hplace, hentry⟩ := eq_of_resolveFrom_put hbefore (by simpa using hne)
          (resolveFrom_of_resolve hafter)
        exact ⟨rfl, congrArg Except.ok (Prod.ext hplace hentry)⟩
    · cases h
  · cases h

theorem keeps_of_writeText (h : t.writeText p text = .ok u) :
    t.Keeps u ∧ u.working = t.working := by
  obtain ⟨q, hplain, rfl, -⟩ := exists_put_of_writeBytes h
  exact ⟨hplain.keeps_put _, rfl⟩

/-- What has been written to a path is read back there. -/
theorem readText_of_writeText (h : t.writeText p text = .ok u) :
    u.hasEntry p = true ∧ u.readText p = .ok text := by
  obtain ⟨q, -, -, hresolve⟩ := exists_put_of_writeBytes h
  constructor
  · rw [hasEntry, find?, hresolve]
    rfl
  · rw [readText, readBytes, hresolve]
    dsimp only
    rw [fromUTF8?_toUTF8]

end CallAtlas.FileTree
