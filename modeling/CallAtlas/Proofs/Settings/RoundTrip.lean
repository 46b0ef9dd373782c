import CallAtlas.Proofs.Files.Writing
import CallAtlas.Proofs.Toml.Documents
import CallAtlas.Settings.File
/-!
# Settings that are loaded again

Settings that have been saved in a file are loaded from it unchanged, whatever texts and numbers they
hold. Where they are not saved, because the file is there already or a number does not fit it, no
file is touched.
-/

namespace CallAtlas.Settings

open Toml (Content IsMember IsTexts Members)

variable {s : Settings} {t u : FileTree} {path : Path} {force : Bool}

/-! ### The document -/

/-- What the members of the document hold. -/
def contents (s : Settings) : List (String × Content) :=
  [("output_dir", .text s.output.text), ("exclude", .texts s.exclude),
    ("respect_ignore", .truth s.respectIgnore)] ++
  (s.workers.map fun n => ("workers", .number n)).toList ++
  [("max_depth", .number s.maxDepth), ("format", .text s.format.name),
    ("dedupe_cycles", .truth s.dedupeCycles)]

theorem writtenMembers_eq (s : Settings) :
    s.writtenMembers = s.contents.map fun m => (m.1, m.2.written) := by
  cases hworkers : s.workers with
  | none => simp only [writtenMembers, contents, hworkers]; rfl
  | some n => simp only [writtenMembers, contents, hworkers]; rfl

theorem toList_write (s : Settings) : s.write.toList = s.contents.flatMap Toml.memberLine := by
  rw [write, writtenMembers_eq, List.map_map, String.toList_join, List.flatMap_map]
  exact List.flatMap_congr fun m _ => by simp [Toml.memberLine]

/-- The keys that the document can have. -/
def keys : List String :=
  ["output_dir", "exclude", "respect_ignore", "workers", "max_depth", "format", "dedupe_cycles"]

theorem keys_contents (s : Settings) : (s.contents.map (·.1)).Sublist keys := by
  unfold contents
  cases s.workers with
  | none =>
    show ["output_dir", "exclude", "respect_ignore", "max_depth", "format",
      "dedupe_cycles"].Sublist keys
    decide
  | some n => exact List.Sublist.refl keys

theorem isBare_of_mem_contents {m : String × Content} (h : m ∈ s.contents) : Toml.IsBare m.1 := by
  have hbare : ∀ key ∈ keys, Toml.IsBare key := by decide
  exact hbare m.1 (s.keys_contents.subset (List.mem_map_of_mem h))

theorem nodup_contents (s : Settings) : (s.contents.map (·.1)).Nodup :=
  s.keys_contents.nodup (by decide)

theorem fits_of_mem_contents (hfits : s.fits = true) {m : String × Content} (h : m ∈ s.contents) :
    m.2.Fits := by
  rw [fits, Bool.and_eq_true_iff, decide_eq_true_iff, decide_eq_true_iff] at hfits
  simp only [contents, List.mem_append, List.mem_cons, List.not_mem_nil, or_false,
    Option.mem_toList, Option.map_eq_some_iff] at h
  obtain ((rfl | rfl | rfl) | ⟨n, hn, rfl⟩) | rfl | rfl | rfl := h
  case inl.inr =>
    rw [hn, Option.getD_some] at hfits
    exact hfits.1
  case inr.inl => exact hfits.2
  all_goals trivial

theorem readStrings_of_isTexts {ts : List String} {v : Toml.Value} (h : IsTexts ts v)
    (span : Toml.Span) : readStrings span v = .ok ts := by
  obtain ⟨vs, rfl, hvs⟩ := h
  rw [readStrings]
  induction vs generalizing ts with
  | nil =>
    cases ts with
    | nil => rfl
    | cons t ts => cases hvs
  | cons v vs ih =>
    obtain ⟨place, v⟩ := v
    cases ts with
    | nil => cases hvs
    | cons t ts =>
      obtain ⟨rfl, hrest⟩ := List.cons.inj hvs
      rw [List.mapM_cons, ih hrest]
      rfl

theorem setMember_exclude {ts : List String} {v : Toml.Value} (h : IsTexts ts v) (s : Settings)
    (span : Toml.Span) : s.setMember "exclude" span v = .ok { s with exclude := ts } := by
  simp only [setMember, readStrings_of_isTexts h]
  rfl

theorem setMember_format (f : Diagram.Format) (s : Settings) (span : Toml.Span) :
    s.setMember "format" span (.string f.name) = .ok { s with format := f } := by
  cases f <;> rfl

/-- The first member is set, and then the others. -/
theorem foldlM_setMember {m : String × Content} {ms : List (String × Content)} {members : Members}
    {s s' s'' : Settings} (hmembers : List.Forall₂ IsMember (m :: ms) members)
    (hfirst : ∀ span v, m.2.Holds v → s.setMember m.1 span v = .ok s')
    (hothers : ∀ others, List.Forall₂ IsMember ms others →
      others.foldlM (fun s (key, span, v) => s.setMember key span v) s' = .ok s'') :
    members.foldlM (fun s (key, span, v) => s.setMember key span v) s = .ok s'' := by
  cases hmembers with
  | @cons _ member _ others hmember hrest =>
    obtain ⟨key, span, v⟩ := member
    obtain ⟨rfl, hv⟩ := hmember
    rw [List.foldlM_cons]
    dsimp only
    rw [hfirst span v hv]
    exact hothers others hrest

/-- The members set everything; the number of workers is the default where its member is left
out. -/
theorem ofMembers_eq {members : Members} (h : List.Forall₂ IsMember s.contents members) :
    ofMembers members = .ok s := by
  obtain ⟨output, exclude, respectIgnore, workers, maxDepth, format, dedupeCycles⟩ := s
  have hlast : ∀ {s : Settings} {others : Members}, List.Forall₂ IsMember
      [("max_depth", .number maxDepth), ("format", .text format.name),
        ("dedupe_cycles", .truth dedupeCycles)] others →
      others.foldlM (fun s (key, span, v) => s.setMember key span v) s =
        .ok { s with maxDepth, format, dedupeCycles } := by
    intro s others h
    refine foldlM_setMember h (by rintro span v rfl; rfl) fun others h => ?_
    refine foldlM_setMember h (by rintro span v rfl; exact setMember_format _ _ _) fun others h => ?_
    refine foldlM_setMember h (by rintro span v rfl; rfl) fun others h => ?_
    cases h
    rfl
  refine foldlM_setMember h (by rintro span v rfl; rfl) fun others h => ?_
  refine foldlM_setMember h (fun span v hv => setMember_exclude hv _ span) fun others h => ?_
  refine foldlM_setMember h (by rintro span v rfl; rfl) fun others h => ?_
  cases workers with
  | none => exact hlast h
  | some n => exact foldlM_setMember h (by rintro span v rfl; rfl) fun others h => hlast h

/-- Settings are read from the document that is written of them. -/
theorem read_write (hfits : s.fits = true) : read s.write = .ok s := by
  obtain ⟨members, hread, hmembers⟩ := Toml.exists_read (fun m => isBare_of_mem_contents)
    (fun m => fits_of_mem_contents hfits) s.nodup_contents s.toList_write
  rw [read, hread]
  exact ofMembers_eq hmembers

/-! ### The file -/

/-- What saving does: the first obstacle decides, and the file is written where there is none. -/
theorem run_saving (s : Settings) (path : Path) (force : Bool) (t : FileTree) :
    (s.saving path force).run t =
      if t.hasEntry path && !force then (.error (.taken path), t)
      else if !s.fits then (.error .outOfRange, t)
      else match t.writeText path s.write with
        | .ok u => (.ok (), u)
        | .error fault => (.error (.unwritable fault), t) := by
  have hget {α : Type} (f : FileTree → ExceptT SettingsFailure (StateM FileTree) α) :
      (MonadState.get >>= f).run t = (f t).run t := rfl
  unfold saving
  rw [hget]
  cases t.hasEntry path && !force with
  | true => rfl
  | false =>
    cases s.fits with
    | false => rfl
    | true =>
      show (MonadState.get >>= fun (t : FileTree) => _ :
        ExceptT SettingsFailure (StateM FileTree) Unit).run t = _
      rw [hget]
      cases t.writeText path s.write <;> rfl

theorem load_of_writeText (hfits : s.fits = true) (h : t.writeText path s.write = .ok u) :
    load u (some path) = .ok s := by
  obtain ⟨hentry, htext⟩ := FileTree.readText_of_writeText h
  simp only [load, hentry, if_true, loadFrom, htext, read_write hfits]

theorem fits_eq_false : s.fits = false ↔
    maxNumber < s.maxDepth ∨ ∃ n, s.workers = some n ∧ maxNumber < n := by
  rw [fits, Bool.and_eq_false_iff, decide_eq_false_iff_not, decide_eq_false_iff_not, Nat.not_le,
    Nat.not_le, or_comm]
  cases s.workers <;> simp

/-- Whatever settings are saved in a file, the same settings are loaded from it. Saving is refused
where the file exists and is not to be written over, and next where a number is too large for the
document; it fails else only where the file cannot be written. Whenever it fails, all files are what
they were. -/
theorem saved_settings_load (s : Settings) (path : Path) (force : Bool) (t : FileTree) :
    let result := (s.saving path force).run t
    (result.1 = .ok () → load result.2 (some path) = .ok s) ∧
    (∀ e, result.1 = .error e → result.2 = t) ∧
    (result.1 = .error (.taken path) ↔ t.hasEntry path = true ∧ force = false) ∧
    (result.1 = .error .outOfRange ↔ ¬(t.hasEntry path = true ∧ force = false) ∧
      (maxNumber < s.maxDepth ∨ ∃ n, s.workers = some n ∧ maxNumber < n)) ∧
    (result.1 = .ok () ↔ ¬(t.hasEntry path = true ∧ force = false) ∧
      ¬(maxNumber < s.maxDepth ∨ ∃ n, s.workers = some n ∧ maxNumber < n) ∧
      ∃ u, t.writeText path s.write = .ok u) := by
  have htaken : (t.hasEntry path = true ∧ force = false) ↔ (t.hasEntry path && !force) = true := by
    simp
  rw [htaken, ← fits_eq_false]
  dsimp only
  rw [run_saving]
  cases t.hasEntry path && !force with
  | true => simp
  | false =>
    cases hfits : s.fits with
    | false => simp
    | true =>
      cases hwrite : t.writeText path s.write with
      | ok u => simp [load_of_writeText hfits hwrite]
      | error fault => simp

/-- A file with something else in it. -/
def someFile : FileTree := (default : FileTree).put ["callmap.toml"] (.file "# none".toUTF8)

def oddSettings : Settings where
  output := ⟨"C:\\atlas\\"⟩
  exclude := ["it's \"quoted\"", "\ntwo\nlines\t", "\"\"\"'''", "\x7f\r", ""]
  workers := some maxNumber
  maxDepth := 0

/-- The file with something else in it is written over or left alone, as is asked for. -/
theorem saved_settings_load_odd :
    let result := (oddSettings.saving ⟨"callmap.toml"⟩ true).run someFile
    let refused := (oddSettings.saving ⟨"callmap.toml"⟩ false).run someFile
    result.1 = .ok () ∧ load result.2 (some ⟨"callmap.toml"⟩) = .ok oddSettings ∧
      refused.1 = .error (.taken ⟨"callmap.toml"⟩) ∧ refused.2 = someFile := by
  obtain ⟨hload, -, -, -, hdone⟩ := saved_settings_load oddSettings ⟨"callmap.toml"⟩ true someFile
  obtain ⟨-, hkept, htaken, -⟩ := saved_settings_load oddSettings ⟨"callmap.toml"⟩ false someFile
  have hfile : someFile.entry? ["callmap.toml"] = some (.file "# none".toUTF8) := by
    rw [someFile, FileTree.entry?_put (by decide), if_pos rfl]
  have hlead := FileTree.leadsTo_empty someFile
  have hwrite := hlead.writeText_join (by decide) (.inr ⟨_, hfile⟩) oddSettings.write
  have hentry : someFile.hasEntry ⟨"callmap.toml"⟩ = true := by
    refine (hlead.hasEntry_join (by decide) fun target => ?_).trans (congrArg Option.isSome hfile)
    rw [show someFile.working ++ ["callmap.toml"] = ["callmap.toml"] from rfl, hfile]
    simp
  have hok := hdone.2 ⟨by simp, by decide, _, hwrite⟩
  have hrefused := htaken.2 ⟨hentry, rfl⟩
  exact ⟨hok, hload hok, hrefused, hkept _ hrefused⟩

end CallAtlas.Settings
