import CallAtlas.Proofs.Diagram.Scanning
import CallAtlas.Proofs.Lists
import Mathlib.Data.List.Basic
/-!
# Reading diagrams

A grammar gives every line the statements that its words make, and a text is read only if all of
its lines are. What lines are read as does not depend on the lines behind them.
-/

namespace CallAtlas.Diagram

/-- What a line of a diagram declares. -/
inductive Statement where
  | node (number : Nat) (label : String)
  /-- A connection, on a cycle if it is marked as such. -/
  | connection (c : Connection)
  /-- A style for the connections at these positions. -/
  | style (positions : List Nat)
deriving DecidableEq, Repr

/-- The declarations of some nodes of a layout, whose labels stand there as `shown` gives them. -/
def Layout.declare (l : Layout) (shown : String → String) (members : List Nat) : List Statement :=
  members.map fun i => .node i (shown (l.label i))

/-- A decimal number as it is written. -/
def digits (n : Nat) : List Token := chars (toString n)

/-- A name that ends in a number as it is written. -/
def numbered (stem : String) (n : Nat) : List Token := chars stem ++ digits n

def Token.digit? : Token → Option Char
  | .char c => if c.isDigit then some c else none
  | .label _ => none

/-- The number that a word of digits writes. -/
def number? (word : List Token) : Option Nat :=
  if word = [] then none else (word.mapM Token.digit?).map fun ds => Nat.ofDigitChars 10 ds 0

/-- The number behind a stem. -/
def numbered? (stem : String) (word : List Token) : Option Nat :=
  (word.dropPrefix? (chars stem)).bind number?

/-- The connection between two numbered nodes. -/
def connection? (source target : List Token) (inCycle : Bool) : Option Statement := do
  return .connection ⟨← numbered? "n" source, ← numbered? "n" target, inCycle⟩

theorem digits_eq (n : Nat) : digits n = (Nat.toDigits 10 n).map .char := by
  rw [digits, chars, Nat.toString_eq_ofList_toDigits, String.toList_ofList]

theorem digits_ne_nil (n : Nat) : digits n ≠ [] := by
  rw [digits_eq]
  exact mt List.map_eq_nil_iff.1 Nat.toDigits_ne_nil

theorem isDigit_of_mem_digits {n : Nat} {c : Char} (h : .char c ∈ digits n) : c.isDigit := by
  rw [digits_eq] at h
  obtain ⟨d, hd, heq⟩ := List.mem_map.1 h
  cases heq
  exact Nat.isDigit_of_mem_toDigits (by decide) (by decide) hd

@[simp] theorem number?_digits (n : Nat) : number? (digits n) = some n := by
  have hdigits : ∀ c ∈ Nat.toDigits 10 n, Token.digit? (.char c) = some c := fun c hc =>
    if_pos (Nat.isDigit_of_mem_toDigits (by decide) (by decide) hc)
  rw [number?, if_neg (digits_ne_nil n), digits_eq, mapM_map_eq_some hdigits, Option.map_some,
    Nat.ofDigitChars_ten_toDigits]

@[simp] theorem numbered?_numbered (stem : String) (n : Nat) :
    numbered? stem (numbered stem n) = some n := by
  rw [numbered?, numbered, List.dropPrefix?_append_of_beq _ (BEq.refl _)]
  exact number?_digits n

@[simp] theorem connection?_numbered (a b : Nat) (inCycle : Bool) :
    connection? (numbered "n" a) (numbered "n" b) inCycle = some (.connection ⟨a, b, inCycle⟩) := by
  rw [connection?, numbered?_numbered, numbered?_numbered]
  rfl

theorem not_mem_numbered {stem : String} {n : Nat} {c : Char} (hstem : c ∉ stem.toList)
    (hc : c.isDigit = false) : .char c ∉ numbered stem n := by
  rw [numbered, List.mem_append, not_or]
  constructor
  · intro h
    obtain ⟨d, hd, heq⟩ := List.mem_map.1 h
    cases heq
    exact hstem hd
  · intro h
    rw [isDigit_of_mem_digits h] at hc
    cases hc

theorem splitOn_pair {a b : List Token} {t : Token} (ha : t ∉ a) (hb : t ∉ b) :
    (a ++ t :: b).splitOn t = [a, b] := by
  rw [List.splitOn_append_cons_self_of_not_mem ha, List.splitOn_eq_singleton hb]

theorem Word.digits {escape : Option Char} (n : Nat) :
    Word escape (toString n).toList (digits n) := by
  apply Word.map_char
  · intro h
    apply digits_ne_nil n
    rw [Diagram.digits, chars, h]
    rfl
  · intro c hc hmem
    have hdigit : c.isDigit := isDigit_of_mem_digits (List.mem_map_of_mem hc)
    simp only [List.mem_cons, List.not_mem_nil, or_false] at hmem
    rcases hmem with rfl | rfl | rfl <;> cases hdigit

theorem Word.numbered {escape : Option Char} {stem : String} (hstem : isPlain stem = true)
    (n : Nat) : Word escape (stem ++ toString n).toList (numbered stem n) := by
  rw [String.toList_append]
  exact (Word.plain hstem).append (Word.digits n)

theorem word_vertex {escape : Option Char} (i : Nat) :
    Word escape (vertex i).toList (numbered "n" i) :=
  Word.numbered rfl i

/-- How the texts of a language are read. -/
structure Grammar where
  /-- The character that takes the next one of a label as it is. -/
  escape : Option Char
  /-- The statements of a line of words, unless the line is malformed. -/
  statements : List (List Token) → Option (List Statement)
  statements_nil : statements [] = some []

namespace Grammar

/-- The statements of a text, unless some line is malformed. -/
def read (g : Grammar) (text : List Char) : Option (List Statement) := do
  let tokens ← scan g.escape .outside text
  let lines ← (tokens.splitOn (.char '\n')).mapM fun line => g.statements (words line)
  return lines.flatten

variable {g : Grammar}

theorem read_nil : g.read [] = some [] := by
  simp [read, scan, words_nil, g.statements_nil]

theorem read_line {line : List Char} {ts : List Token} {ss : List Statement}
    (hscans : Scans g.escape line ts) (hend : .char '\n' ∉ ts)
    (hss : g.statements (words ts) = some ss) (rest : List Char) :
    g.read (line ++ '\n' :: rest) = (g.read rest).map (ss ++ ·) := by
  have hscan := hscans.append (Scans.char (c := '\n') (by decide)) rest
  rw [List.append_assoc] at hscan
  unfold read
  rw [show line ++ '\n' :: rest = line ++ (['\n'] ++ rest) from rfl, hscan]
  cases scan g.escape .outside rest with
  | none => rfl
  | some tokens =>
    have hsplit := List.splitOn_append_cons_self_of_not_mem hend tokens
    simp only [Option.map_some, Option.bind_eq_bind, Option.bind_some, List.append_assoc,
      List.singleton_append, hsplit, List.mapM_cons, hss]
    cases (tokens.splitOn (.char '\n')).mapM fun line => g.statements (words line) <;> rfl

end Grammar

variable {g : Grammar} {lines : List String} {ss : List Statement}

/-- What lines are read as, whatever stands behind them. -/
def Reads (g : Grammar) (lines : List String) (ss : List Statement) : Prop :=
  ∀ rest, g.read (lines.flatMap (fun line => line.toList ++ ['\n']) ++ rest) =
    (g.read rest).map (ss ++ ·)

namespace Reads

theorem nil : Reads g [] [] := fun _ => Option.map_id'.symm

theorem append {lines' : List String} {ss' : List Statement} (h : Reads g lines ss)
    (h' : Reads g lines' ss') : Reads g (lines ++ lines') (ss ++ ss') := by
  intro rest
  rw [List.flatMap_append, List.append_assoc, h, h', Option.map_map]
  congr 1
  funext ss''
  exact (List.append_assoc ss ss' ss'').symm

theorem of_scans {line : String} {ts : List Token} (hscans : Scans g.escape line.toList ts)
    (hend : .char '\n' ∉ ts) (hss : g.statements (words ts) = some ss) : Reads g [line] ss := by
  intro rest
  have hread := Grammar.read_line hscans hend hss rest
  simpa using hread

theorem line {line : String} {ws : List (List Token)} (hline : Line g.escape line.toList ws)
    (hss : g.statements ws = some ss) : Reads g [line] ss := by
  obtain ⟨ts, hscans, hend, rfl⟩ := hline.scans
  exact of_scans hscans hend hss

/-- A line without labels is read as it stands. -/
theorem plain {line : String} (hplain : line.toList.all (· ∉ ['"', '\n']) = true)
    (hss : g.statements (words (chars line)) = some ss) : Reads g [line] ss := by
  have hnot : ∀ c ∈ line.toList, c ∉ ['"', '\n'] := fun c hc =>
    of_decide_eq_true (List.all_eq_true.1 hplain c hc)
  apply of_scans (Scans.map_char fun hquote => hnot _ hquote (by decide)) _ hss
  intro hend
  obtain ⟨c, hc, heq⟩ := List.mem_map.1 hend
  cases heq
  exact hnot _ hc (by decide)

theorem flatMap {α : Type} {write : α → List String} {read : α → List Statement} {xs : List α}
    (h : ∀ x ∈ xs, Reads g (write x) (read x)) : Reads g (xs.flatMap write) (xs.flatMap read) := by
  induction xs with
  | nil => exact nil
  | cons x xs ih =>
    rw [List.flatMap_cons, List.flatMap_cons]
    exact (h x List.mem_cons_self).append (ih fun y hy => h y (List.mem_cons_of_mem _ hy))

theorem map {α : Type} {write : α → String} {read : α → Statement} {xs : List α}
    (h : ∀ x ∈ xs, Reads g [write x] [read x]) : Reads g (xs.map write) (xs.map read) := by
  rw [List.map_eq_flatMap, List.map_eq_flatMap]
  exact flatMap h

theorem clusters {l : Layout} {shown : String → String}
    {write : Nat → String → List Nat → List String}
    (h : ∀ position module members,
      Reads g (write position module members) (l.declare shown members)) :
    Reads g (l.clusters.entries.zipIdx.flatMap fun e => write e.2 e.1.1 e.1.2)
      (l.clusters.entries.flatMap fun e => l.declare shown e.2) := by
  have hmembers : (l.clusters.entries.flatMap fun e => l.declare shown e.2) =
      l.clusters.entries.zipIdx.flatMap fun e => l.declare shown e.1.2 := by
    rw [← List.flatMap_map Prod.fst fun e : String × List Nat => l.declare shown e.2,
      List.zipIdx_map_fst]
  rw [hmembers]
  exact flatMap fun e _ => h e.2 e.1.1 e.1.2

end Reads

theorem toList_joinLines (line : String) (lines : List String) :
    (joinLines (line :: lines)).toList =
      (line :: lines).flatMap fun line => line.toList ++ ['\n'] := by
  induction lines generalizing line with
  | nil => simp [joinLines]
  | cons next lines ih =>
    rw [List.flatMap_cons, ← ih next]
    simp [joinLines, String.intercalate_cons_cons]

/-- Lines with a line end behind each are read line by line. -/
theorem Reads.joinLines {line : String} (h : Reads g (line :: lines) ss) :
    g.read (joinLines (line :: lines)).toList = some ss := by
  have hread := h []
  rw [List.append_nil, ← toList_joinLines, Grammar.read_nil] at hread
  rw [hread, Option.map_some, List.append_nil]

end CallAtlas.Diagram
