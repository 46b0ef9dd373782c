import CallAtlas.Files.FileTree
import Mathlib.Data.List.Basic
/-!
# Segments of paths

The way that a path describes consists of its segments without empty ones and dots. A name joined to
a path is one more step, and the directory above it describes the same way as the path itself.
-/

namespace CallAtlas.Path

variable {p : Path} {name s text : String}

/-! ### Segments of a text -/

theorem segmentsOf_of_append (before : List Char) {behind : List Char}
    (h : text.toList = before ++ '/' :: behind) :
    segmentsOf text = segmentsOf (String.ofList before) ++ segmentsOf (String.ofList behind) := by
  simp only [segmentsOf, h, String.toList_ofList, List.splitOn_append_cons_self, List.map_append]

theorem segmentsOf_of_not_mem (h : '/' ∉ text.toList) : segmentsOf text = [text] := by
  simp [segmentsOf, List.splitOn_eq_singleton h]

theorem segmentsOf_ne_nil (text : String) : segmentsOf text ≠ [] := by
  simp [segmentsOf, List.splitOn_ne_nil]

theorem intercalate_segmentsOf (text : String) : "/".intercalate (segmentsOf text) = text := by
  apply String.toList_inj.1
  have hmap : (segmentsOf text).map String.toList = text.toList.splitOn '/' := by
    simp [segmentsOf, Function.comp_def]
  rw [String.toList_intercalate, hmap]
  exact List.intercalate_splitOn '/'

theorem segmentsOf_intercalate {ss : List String} (h : ∀ s ∈ ss, '/' ∉ s.toList) (hne : ss ≠ []) :
    segmentsOf ("/".intercalate ss) = ss := by
  have hsplit : (['/'].intercalate (ss.map String.toList)).splitOn '/' = ss.map String.toList :=
    List.splitOn_intercalate '/' (by simpa using h) (by simpa using hne)
  have htext : ("/".intercalate ss).toList = ['/'].intercalate (ss.map String.toList) :=
    String.toList_intercalate
  rw [segmentsOf, htext, hsplit, List.map_map]
  simp [Function.comp_def]

theorem not_mem_of_mem_splitOn {a : Char} {l piece : List Char} (h : piece ∈ l.splitOn a) :
    a ∉ piece := by
  induction l generalizing piece with
  | nil =>
    rw [List.splitOn_nil, List.mem_singleton] at h
    simp [h]
  | cons c l ih =>
    rw [List.splitOn_cons_eq_if_modifyHead] at h
    split at h
    · rcases List.mem_cons.1 h with rfl | h
      · exact List.not_mem_nil
      · exact ih h
    · rename_i hne
      obtain ⟨first, others, hsplit⟩ := List.exists_cons_of_ne_nil (List.splitOn_ne_nil a l)
      rw [hsplit] at h ih
      rcases List.mem_cons.1 h with rfl | h
      · intro hmem
        rcases List.mem_cons.1 hmem with rfl | hmem
        · exact hne (beq_self_eq_true _)
        · exact ih List.mem_cons_self hmem
      · exact ih (List.mem_cons_of_mem first h)

theorem not_mem_of_mem_segmentsOf (h : s ∈ segmentsOf text) : '/' ∉ s.toList := by
  obtain ⟨piece, hpiece, rfl⟩ := List.mem_map.1 h
  rw [String.toList_ofList]
  exact not_mem_of_mem_splitOn hpiece

/-! ### Steps -/

/-- Whether a segment leads somewhere. -/
def isStep (segment : String) : Bool := segment != "" && segment != "."

/-- The segments that lead somewhere. -/
def steps (p : Path) : List String := p.segments.filter isStep

/-- A text that names something in a directory. -/
structure IsName (name : String) : Prop where
  ne_empty : name ≠ ""
  ne_dot : name ≠ "."
  ne_parent : name ≠ ".."
  no_separator : '/' ∉ name.toList

instance : Decidable (IsName name) :=
  decidable_of_iff (name ≠ "" ∧ name ≠ "." ∧ name ≠ ".." ∧ '/' ∉ name.toList)
    ⟨fun ⟨hempty, hdot, hparent, hseparator⟩ => ⟨hempty, hdot, hparent, hseparator⟩,
      fun h => ⟨h.ne_empty, h.ne_dot, h.ne_parent, h.no_separator⟩⟩

theorem IsName.isStep (h : IsName name) : isStep name = true := by
  simp [Path.isStep, h.ne_empty, h.ne_dot]

theorem IsName.componentOf (h : IsName name) : componentOf name = some (.normal name) := by
  unfold Path.componentOf
  split
  · exact absurd rfl h.ne_empty
  · exact absurd rfl h.ne_dot
  · exact absurd rfl h.ne_parent
  · rfl

/-! ### Joining -/

theorem IsName.head?_ne (h : IsName name) : name.toList.head? ≠ some '/' := by
  intro hhead
  exact h.no_separator (List.mem_of_mem_head? (Option.mem_def.2 hhead))

/-- A path ends at a separator, or it is empty, or a separator must be put behind it. -/
theorem text_join (h : IsName name) :
    (p.text = "" ∧ (p.join name).text = name) ∨
      ∃ before : List Char, (p.join name).text.toList = before ++ '/' :: name.toList ∧
        (p.text.toList = before ∨ p.text.toList = before ++ ['/']) ∧ p.text ≠ "" := by
  have hrooted : (name.toList.head? == some '/') = false := by simpa using h.head?_ne
  unfold join
  rw [hrooted, Bool.false_or]
  by_cases hempty : p.text = ""
  · exact .inl ⟨hempty, by simp [hempty]⟩
  · right
    rw [if_neg (by simpa using hempty)]
    split
    · rename_i hlast
      obtain ⟨before, hbefore⟩ := List.getLast?_eq_some_iff.1 (beq_iff_eq.1 hlast)
      exact ⟨before, by simp [hbefore], .inr hbefore, hempty⟩
    · exact ⟨p.text.toList, by simp, .inl rfl, hempty⟩

theorem text_join_ne_empty (h : IsName name) : (p.join name).text ≠ "" := by
  rcases text_join (p := p) h with ⟨-, htext⟩ | ⟨before, htext, -⟩
  · rw [htext]
    exact h.ne_empty
  · intro hempty
    simp [hempty] at htext

theorem isAbsolute_join (h : IsName name) : (p.join name).isAbsolute = p.isAbsolute := by
  rcases text_join (p := p) h with ⟨hempty, htext⟩ | ⟨before, htext, hbefore, hne⟩
  · have hhead := h.head?_ne
    simp [isAbsolute, htext, hempty, hhead]
  · have hhead : (p.join name).text.toList.head? = p.text.toList.head? := by
      rcases hbefore with hbefore | hbefore
      · rw [htext, ← hbefore, List.head?_append_of_ne_nil]
        simpa using hne
      · rw [htext, hbefore, List.append_cons before '/' name.toList, List.head?_append_of_ne_nil]
        simp
    rw [isAbsolute, isAbsolute, hhead]

/-- The segments of a joined path before the name describe the way to the path. -/
theorem exists_segments_join (h : IsName name) :
    ∃ before, (p.join name).segments = before ++ [name] ∧ before.filter isStep = p.steps ∧
      ((p.join name).segments.head? = some "." ↔ p.segments.head? = some ".") := by
  rcases text_join (p := p) h with ⟨hempty, htext⟩ | ⟨before, htext, hbefore, -⟩
  · refine ⟨[], ?_, ?_, ?_⟩
    · rw [segments, htext, segmentsOf_of_not_mem h.no_separator, List.nil_append]
    · rw [steps, segments, hempty]
      rfl
    · rw [segments, segments, htext, hempty, segmentsOf_of_not_mem h.no_separator]
      simp [segmentsOf_of_not_mem, h.ne_dot]
  · have hsegments : (p.join name).segments = segmentsOf (String.ofList before) ++ [name] := by
      rw [segments, segmentsOf_of_append before htext, String.ofList_toList,
        segmentsOf_of_not_mem h.no_separator]
    have hhead : (p.join name).segments.head? = (segmentsOf (String.ofList before)).head? := by
      rw [hsegments, List.head?_append_of_ne_nil _ (segmentsOf_ne_nil _)]
    refine ⟨segmentsOf (String.ofList before), hsegments, ?_, ?_⟩
    · rcases hbefore with hbefore | hbefore
      · rw [← hbefore, String.ofList_toList]
        rfl
      · rw [steps, segments, segmentsOf_of_append before hbefore, List.filter_append]
        simp [segmentsOf_of_not_mem, isStep]
    · rw [hhead]
      rcases hbefore with hbefore | hbefore
      · rw [← hbefore, String.ofList_toList]
        rfl
      · rw [segments, segmentsOf_of_append before hbefore,
          List.head?_append_of_ne_nil _ (segmentsOf_ne_nil _)]

theorem join_of_relative (hrooted : text.toList.head? ≠ some '/') :
    p.join text =
      if p.text = "" then ⟨text⟩
      else if p.text.toList.getLast? = some '/' then ⟨p.text ++ text⟩
      else ⟨p.text ++ "/" ++ text⟩ := by
  simp [join, hrooted]

/-- Two names joined one after another are joined with a separator between them. -/
theorem join_join (h : IsName name) (hrooted : text.toList.head? ≠ some '/') :
    (p.join name).join text = p.join (name ++ "/" ++ text) := by
  have hlast : (p.join name).text.toList.getLast? = name.toList.getLast? := by
    rcases text_join (p := p) h with ⟨-, htext⟩ | ⟨before, htext, -⟩
    · rw [htext]
    · rw [htext, List.append_cons, List.getLast?_append_of_ne_nil]
      simpa using h.ne_empty
  have hopen : (p.join name).text.toList.getLast? ≠ some '/' := by
    rw [hlast]
    exact fun hslash => h.no_separator (List.mem_of_getLast? hslash)
  have hhead : (name ++ "/" ++ text).toList.head? ≠ some '/' := by
    rw [String.toList_append, String.toList_append, List.append_assoc,
      List.head?_append_of_ne_nil]
    · exact h.head?_ne
    · simpa using h.ne_empty
  rw [join_of_relative hrooted, if_neg (text_join_ne_empty h), if_neg hopen,
    join_of_relative hhead, join_of_relative h.head?_ne]
  split
  · rfl
  · split <;> simp [String.append_assoc]

/-! ### The directory above -/

theorem componentOf_of_not_isStep (h : isStep s = false) : componentOf s = none := by
  simp only [isStep, Bool.and_eq_false_iff, bne_eq_false_iff_eq] at h
  rcases h with rfl | rfl <;> rfl

theorem exists_componentOf (h : isStep s = true) :
    ∃ c, componentOf s = some c ∧ componentText c = s := by
  unfold componentOf
  split
  · cases h
  · cases h
  · exact ⟨.parent, rfl, rfl⟩
  · exact ⟨.normal s, rfl, rfl⟩

theorem map_componentText (ss : List String) :
    (ss.filterMap componentOf).map componentText = ss.filter isStep := by
  induction ss with
  | nil => rfl
  | cons s ss ih =>
    cases hs : isStep s with
    | false =>
      rw [List.filterMap_cons_none (componentOf_of_not_isStep hs), List.filter_cons_of_neg (by simp [hs])]
      exact ih
    | true =>
      obtain ⟨c, hc, htext⟩ := exists_componentOf hs
      rw [List.filterMap_cons_some hc, List.filter_cons_of_pos hs, List.map_cons, htext, ih]

theorem filterMap_componentOf (ss : List String) :
    ss.filterMap componentOf = (ss.filter isStep).filterMap componentOf := by
  rw [List.filterMap_filter]
  congr 1
  funext s
  cases hs : isStep s with
  | false => simp [componentOf_of_not_isStep hs]
  | true => simp

theorem components_join (h : IsName name) :
    (p.join name).components = p.components ++ [.normal name] := by
  obtain ⟨before, hsegments, hsteps, hhead⟩ := exists_segments_join (p := p) h
  have hrest : (p.join name).segments.filterMap componentOf =
      p.segments.filterMap componentOf ++ [.normal name] := by
    rw [hsegments, List.filterMap_append, filterMap_componentOf before, hsteps, steps,
      ← filterMap_componentOf]
    simp [h.componentOf]
  have hdot : ((p.join name).segments.head? == some ".") = (p.segments.head? == some ".") :=
    Bool.eq_iff_iff.2 (by simpa using hhead)
  simp only [components, isAbsolute_join h, hrest, hdot]
  split
  · rfl
  · split <;> rfl

theorem parent?_join (h : IsName name) :
    (p.join name).parent? = some (ofComponents p.components) := by
  simp [parent?, components_join h]

/-- The components of a path are those of its steps behind a mark for where they start. -/
theorem components_eq (p : Path) :
    ∃ start, p.components = start ++ p.segments.filterMap componentOf ∧
      (start = [.root] ∧ p.isAbsolute = true ∨
        (start = [.current] ∨ start = []) ∧ p.isAbsolute = false) := by
  unfold components
  cases hroot : p.isAbsolute with
  | true => exact ⟨[.root], rfl, .inl ⟨rfl, rfl⟩⟩
  | false =>
    rw [if_neg Bool.false_ne_true]
    split
    · exact ⟨[.current], rfl, .inr ⟨.inl rfl, rfl⟩⟩
    · exact ⟨[], rfl, .inr ⟨.inr rfl, rfl⟩⟩

theorem empty_not_mem_steps (p : Path) : "" ∉ p.steps := by
  intro h
  exact absurd (List.mem_filter.1 h).2 (by decide)

theorem segments_ofComponents (h : p.steps ≠ []) :
    (ofComponents p.components).segments = p.components.map componentText := by
  obtain ⟨start, hcomponents, hstart⟩ := components_eq p
  have hsteps : (p.segments.filterMap componentOf).map componentText = p.steps :=
    map_componentText p.segments
  have hne : p.segments.filterMap componentOf ≠ [] := by
    intro hnil
    rw [hnil] at hsteps
    exact h hsteps.symm
  have htext : ofComponents p.components = ⟨"/".intercalate (p.components.map componentText)⟩ := by
    unfold ofComponents
    split
    · rename_i hroot
      rw [hcomponents, List.append_eq_singleton_iff] at hroot
      rcases hroot with ⟨-, hroot⟩ | ⟨-, hnil⟩
      · rw [hroot] at hsteps
        exact absurd (hsteps ▸ List.mem_singleton_self _) (empty_not_mem_steps p)
      · exact absurd hnil hne
    · rfl
  rw [htext]
  apply segmentsOf_intercalate
  · intro s hs
    rw [hcomponents, List.map_append, hsteps] at hs
    rcases List.mem_append.1 hs with hs | hs
    · rcases hstart with ⟨rfl, -⟩ | ⟨rfl | rfl, -⟩
      · simp_all [componentText]
      · simp_all [componentText]
      · simp at hs
    · exact not_mem_of_mem_segmentsOf (List.mem_filter.1 hs).1
  · rw [hcomponents]
    simp [hne]

theorem isAbsolute_iff : p.isAbsolute = true ↔ ∃ rest, rest ≠ [] ∧ p.segments = "" :: rest := by
  constructor
  · intro h
    obtain ⟨behind, hbehind⟩ := List.head?_eq_some_iff.1 (beq_iff_eq.1 h)
    exact ⟨_, segmentsOf_ne_nil (String.ofList behind), segmentsOf_of_append [] hbehind⟩
  · rintro ⟨rest, hne, hsegments⟩
    obtain ⟨s, rest, rfl⟩ := List.exists_cons_of_ne_nil hne
    have htext : p.text = "/".intercalate ("" :: s :: rest) := by
      rw [← hsegments]
      exact (intercalate_segmentsOf p.text).symm
    simp [isAbsolute, htext, String.toList_intercalate]

theorem filter_isStep_steps (p : Path) : p.steps.filter isStep = p.steps := by
  rw [steps, List.filter_filter]
  simp

/-- The path of the components of a path takes the same steps from the same start. -/
theorem ofComponents_components (p : Path) :
    (ofComponents p.components).steps = p.steps ∧
      (ofComponents p.components).isAbsolute = p.isAbsolute := by
  obtain ⟨start, hcomponents, hstart⟩ := components_eq p
  have hsteps : (p.segments.filterMap componentOf).map componentText = p.steps :=
    map_componentText p.segments
  have hempty := empty_not_mem_steps p
  by_cases hnone : p.steps = []
  · -- without a step there is nothing but the start, which is written in a way of its own
    rw [hnone, List.map_eq_nil_iff] at hsteps
    rw [hsteps, List.append_nil] at hcomponents
    rw [hcomponents, hnone]
    rcases hstart with ⟨rfl, habsolute⟩ | ⟨rfl | rfl, hrelative⟩
    · exact ⟨rfl, habsolute.symm⟩
    · exact ⟨rfl, hrelative.symm⟩
    · exact ⟨rfl, hrelative.symm⟩
  · have hsegments : (ofComponents p.components).segments =
        start.map componentText ++ p.steps := by
      rw [segments_ofComponents hnone, hcomponents, List.map_append, hsteps]
    constructor
    · rw [steps, hsegments, List.filter_append, filter_isStep_steps]
      rcases hstart with ⟨rfl, -⟩ | ⟨rfl | rfl, -⟩ <;> rfl
    · rcases hstart with ⟨rfl, habsolute⟩ | ⟨hstart, hrelative⟩
      · rw [habsolute]
        exact isAbsolute_iff.2 ⟨p.steps, hnone, hsegments⟩
      · rw [hrelative, ← Bool.not_eq_true, isAbsolute_iff, hsegments]
        rintro ⟨rest, -, hrest⟩
        rcases hstart with rfl | rfl
        · simp [componentText] at hrest
        · rw [List.map_nil, List.nil_append] at hrest
          rw [hrest] at hempty
          exact hempty List.mem_cons_self

end CallAtlas.Path
