import CallAtlas.Diagram.Layout
/-!
# Scanning diagrams

A text is scanned into tokens before it is cut into lines and words, so that a quoted label is one
token whatever is quoted. A line is read as the list of its words.
-/

namespace CallAtlas.Diagram

/-- A character outside of labels, or a whole label. -/
inductive Token where
  | char (c : Char)
  | label (text : String)
deriving DecidableEq, Repr

/-- The tokens of a text without labels. -/
def chars (s : String) : List Token := s.toList.map .char

/-- Where a scanner stands. Inside a label it keeps what it has read of it, latest first. -/
inductive Place where
  | outside
  | inside (read : List Char)
  | escaped (read : List Char)

/-- The tokens of a text, unless it ends inside a label. Inside a label, `escape` takes the next
character as it is. -/
def scan (escape : Option Char) : Place → List Char → Option (List Token)
  | .outside, [] => some []
  | .inside _, [] => none
  | .escaped _, [] => none
  | .outside, c :: rest =>
    if c = '"' then scan escape (.inside []) rest
    else (scan escape .outside rest).map (.char c :: ·)
  | .inside read, c :: rest =>
    if c = '"' then (scan escape .outside rest).map (.label (String.ofList read.reverse) :: ·)
    else if escape = some c then scan escape (.escaped read) rest
    else scan escape (.inside (c :: read)) rest
  | .escaped read, c :: rest => scan escape (.inside (c :: read)) rest

/-- The words between the blanks of a line. -/
def words (line : List Token) : List (List Token) :=
  (line.splitOn (.char ' ')).filter (· ≠ [])

variable {escape : Option Char} {s t : List Char} {ts us : List Token} {ws : List (List Token)}

/-- What a text is scanned as, whatever stands behind it. -/
def Scans (escape : Option Char) (s : List Char) (ts : List Token) : Prop :=
  ∀ rest, scan escape .outside (s ++ rest) = (scan escape .outside rest).map (ts ++ ·)

namespace Scans

theorem append (hs : Scans escape s ts) (ht : Scans escape t us) :
    Scans escape (s ++ t) (ts ++ us) := by
  intro rest
  rw [List.append_assoc, hs, ht, Option.map_map]
  congr 1
  funext vs
  exact (List.append_assoc ts us vs).symm

theorem char {c : Char} (hc : c ≠ '"') : Scans escape [c] [.char c] := by
  intro rest
  show scan escape .outside (c :: rest) = _
  rw [scan, if_neg hc]
  rfl

theorem map_char (h : '"' ∉ s) : Scans escape s (s.map .char) := by
  induction s with
  | nil =>
    intro rest
    exact Option.map_id'.symm
  | cons c s ih =>
    rw [List.mem_cons, not_or] at h
    exact (char (Ne.symm h.1)).append (ih h.2)

end Scans

/-- Whether a text is a word without labels. -/
def isPlain (w : String) : Bool :=
  !w.toList.isEmpty && w.toList.all fun c => c ∉ ['"', ' ', '\n']

/-- A text that stands between blanks, and its tokens. -/
structure Word (escape : Option Char) (s : List Char) (ts : List Token) : Prop where
  scans : Scans escape s ts
  ne_nil : ts ≠ []
  blank : .char ' ' ∉ ts
  lineEnd : .char '\n' ∉ ts

namespace Word

theorem append (hs : Word escape s ts) (ht : Word escape t us) :
    Word escape (s ++ t) (ts ++ us) where
  scans := hs.scans.append ht.scans
  ne_nil := List.append_ne_nil_of_left_ne_nil hs.ne_nil us
  blank := by
    rw [List.mem_append, not_or]
    exact ⟨hs.blank, ht.blank⟩
  lineEnd := by
    rw [List.mem_append, not_or]
    exact ⟨hs.lineEnd, ht.lineEnd⟩

theorem label {text : String} (h : Scans escape s [.label text]) : Word escape s [.label text] where
  scans := h
  ne_nil := List.cons_ne_nil _ _
  blank := by simp
  lineEnd := by simp

theorem map_char (hne : s ≠ []) (h : ∀ c ∈ s, c ∉ ['"', ' ', '\n']) :
    Word escape s (s.map .char) where
  scans := Scans.map_char fun hq => h _ hq (by decide)
  ne_nil := mt List.map_eq_nil_iff.1 hne
  blank := by
    intro hmem
    obtain ⟨c, hc, heq⟩ := List.mem_map.1 hmem
    cases heq
    exact h _ hc (by decide)
  lineEnd := by
    intro hmem
    obtain ⟨c, hc, heq⟩ := List.mem_map.1 hmem
    cases heq
    exact h _ hc (by decide)

/-- A fixed word without labels. -/
theorem plain {w : String} (h : isPlain w = true) : Word escape w.toList (chars w) := by
  rw [isPlain, Bool.and_eq_true, List.all_eq_true, Bool.not_eq_true',
    List.isEmpty_eq_false_iff] at h
  exact map_char h.1 fun c hc => of_decide_eq_true (h.2 c hc)

end Word

theorem words_nil : words [] = [] := rfl

theorem words_blank (line : List Token) : words (.char ' ' :: line) = words line := by
  simp [words, List.splitOn_cons_eq_if_modifyHead]

theorem words_append (hne : ts ≠ []) (hblank : .char ' ' ∉ ts) (line : List Token) :
    words (ts ++ .char ' ' :: line) = ts :: words line := by
  simp [words, List.splitOn_append_cons_self_of_not_mem hblank, hne]

theorem words_single (hne : ts ≠ []) (hblank : .char ' ' ∉ ts) : words ts = [ts] := by
  simp [words, List.splitOn_eq_singleton hblank, hne]

/-- The words of a written line. -/
inductive Line (escape : Option Char) : List Char → List (List Token) → Prop
  | last {w : List Char} {word : List Token} (hw : Word escape w word) : Line escape w [word]
  | blank {line : List Char} {tail : List (List Token)} (h : Line escape line tail) :
    Line escape (' ' :: line) tail
  | word {w line : List Char} {word : List Token} {tail : List (List Token)}
    (hw : Word escape w word) (h : Line escape line tail) :
    Line escape (w ++ ' ' :: line) (word :: tail)

theorem Line.indent {blanks : List Char} (hblanks : blanks.all (· == ' ') = true)
    (h : Line escape s ws) : Line escape (blanks ++ s) ws := by
  induction blanks with
  | nil => exact h
  | cons c blanks ih =>
    rw [List.all_cons, Bool.and_eq_true, beq_iff_eq] at hblanks
    obtain ⟨rfl, hblanks⟩ := hblanks
    exact .blank (ih hblanks)

/-- A written line is scanned as a line with its words. -/
theorem Line.scans (h : Line escape s ws) :
    ∃ ts, Scans escape s ts ∧ .char '\n' ∉ ts ∧ words ts = ws := by
  induction h with
  | last hw => exact ⟨_, hw.scans, hw.lineEnd, words_single hw.ne_nil hw.blank⟩
  | blank h ih =>
    obtain ⟨ts, hscans, hline, hwords⟩ := ih
    refine ⟨.char ' ' :: ts, ?_, by simp [hline], (words_blank ts).trans hwords⟩
    exact (Scans.char (by decide)).append hscans
  | word hw h ih =>
    obtain ⟨ts, hscans, hline, hwords⟩ := ih
    refine ⟨_, hw.scans.append ((Scans.char (by decide)).append hscans), ?_, ?_⟩
    · simp [hw.lineEnd, hline]
    · rw [← hwords]
      exact words_append hw.ne_nil hw.blank ts

end CallAtlas.Diagram
