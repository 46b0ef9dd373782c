import CallAtlas.Json.Decode
import CallAtlas.Json.Value
import Mathlib.Data.List.Basic
/-!
# What readers read

`Reads p text a rest` says that a reader takes a text to a value and leaves the rest, wherever in a
document it starts. The lemmas give this for the steps that readers are made of; positions matter
only to complaints and are left out.
-/

namespace CallAtlas.Json

open Read

variable {α β : Type} {p : Read α} {a : α} {text s rest : List Char}

/-- From every position, the reader takes the text to a value and leaves the rest. -/
def Reads (p : Read α) (text : List Char) (a : α) (rest : List Char) : Prop :=
  ∀ position, ∃ position', p ⟨text, position⟩ = (.ok a, ⟨rest, position'⟩)

namespace Reads

theorem pure (a : α) (text : List Char) : Reads (Pure.pure a) text a text :=
  fun position => ⟨position, rfl⟩

theorem bind {f : α → Read β} {b : β} (hp : Reads p text a s) (hf : Reads (f a) s b rest) :
    Reads (p >>= f) text b rest := by
  intro position
  obtain ⟨middle, hmiddle⟩ := hp position
  obtain ⟨last, hlast⟩ := hf middle
  refine ⟨last, ?_⟩
  show Read.bind p f _ = _
  rw [Read.bind, hmiddle]
  exact hlast

theorem peek (text : List Char) : Reads Read.peek text text.head? text :=
  fun position => ⟨position, rfl⟩

theorem remaining (text : List Char) : Reads Read.remaining text text.length text :=
  fun position => ⟨position, rfl⟩

theorem skip (c : Char) (rest : List Char) : Reads Read.skip (c :: rest) () rest :=
  fun position => ⟨position.after c, rfl⟩

theorem located (h : Reads p text a rest) : Reads (Read.located p) text a rest := by
  intro position
  obtain ⟨last, hlast⟩ := h position
  exact ⟨last, by simp [Read.located, hlast]⟩

theorem thenEnd {q : Read Unit} (hp : Reads p text a s) (hq : Reads q s () rest) :
    Reads (Read.thenEnd p q) text a rest := by
  intro position
  obtain ⟨middle, hmiddle⟩ := hp position
  obtain ⟨last, hlast⟩ := hq middle
  exact ⟨last, by simp [Read.thenEnd, hmiddle, hlast]⟩

end Reads

/-! ### Blanks -/

/-- Whether readers pass over a character between values. -/
def isBlank (c : Char) : Bool := c == ' ' || c == '\n' || c == '\t' || c == '\r'

/-- A text that readers pass over between values. -/
def AllBlank (text : List Char) : Prop := ∀ c ∈ text, isBlank c = true

theorem allBlank_nil : AllBlank [] := fun _ h => absurd h List.not_mem_nil

theorem allBlank_singleton {c : Char} (h : isBlank c = true) : AllBlank [c] := by
  intro d hd
  rwa [List.mem_singleton.1 hd]

theorem allBlank_newline (level : Nat) : AllBlank (newline level) := by
  intro c hc
  rcases List.mem_cons.1 hc with rfl | hc
  · rfl
  · rw [List.eq_of_mem_replicate hc]
    rfl

theorem peekToken_go {blanks : List Char} (hblanks : AllBlank blanks) (rest : List Char)
    (hrest : ∀ c ∈ rest.head?, isBlank c = false) (position : Position) :
    ∃ position', peekToken.go (blanks ++ rest) position = ⟨rest, position'⟩ := by
  induction blanks generalizing position with
  | nil =>
    cases rest with
    | nil => exact ⟨position, rfl⟩
    | cons c rest =>
      refine ⟨position, ?_⟩
      rw [List.nil_append, peekToken.go, if_neg]
      simpa [isBlank] using hrest c rfl
  | cons b blanks ih =>
    obtain ⟨last, hlast⟩ := ih (fun c hc => hblanks c (List.mem_cons_of_mem b hc)) (position.after b)
    refine ⟨last, ?_⟩
    rw [List.cons_append, peekToken.go]
    exact (if_pos (hblanks b List.mem_cons_self)).trans hlast

theorem reads_peekToken_end {blanks : List Char} (hblanks : AllBlank blanks) :
    Reads peekToken blanks none [] := by
  intro position
  obtain ⟨last, hlast⟩ := peekToken_go hblanks [] (by simp) position
  rw [List.append_nil] at hlast
  exact ⟨last, by simp [peekToken, hlast]⟩

section
variable {blanks : List Char} {c : Char} (hblanks : AllBlank blanks)
include hblanks

theorem reads_peekToken (hc : isBlank c = false) (rest : List Char) :
    Reads peekToken (blanks ++ c :: rest) (some c) (c :: rest) := by
  intro position
  obtain ⟨last, hlast⟩ := peekToken_go hblanks (c :: rest) (by simpa using hc) position
  exact ⟨last, by simp [peekToken, hlast]⟩

theorem reads_peekValue (hc : isBlank c = false) (rest : List Char) :
    Reads peekValue (blanks ++ c :: rest) c (c :: rest) :=
  (reads_peekToken hblanks hc rest).bind (.pure c _)

/-! ### Punctuation -/

theorem reads_moreItems_first (hc : isBlank c = false) (hend : c ≠ ']') (rest : List Char) :
    Reads (moreItems true) (blanks ++ c :: rest) true (c :: rest) := by
  apply (reads_peekToken hblanks hc rest).bind
  simp only [if_true]
  exact .pure true _

theorem reads_moreItems_next (hc : isBlank c = false) (hend : c ≠ ']') (rest : List Char) :
    Reads (moreItems false) (',' :: (blanks ++ c :: rest)) true (c :: rest) := by
  apply (reads_peekToken allBlank_nil (by decide) _).bind
  apply (Reads.skip ',' _).bind
  apply (reads_peekToken hblanks hc rest).bind
  simp only
  exact .pure true _

theorem reads_moreItems_end (first : Bool) (rest : List Char) :
    Reads (moreItems first) (blanks ++ ']' :: rest) false (']' :: rest) :=
  (reads_peekToken hblanks (by decide) rest).bind (.pure false _)

theorem reads_moreMembers_first (rest : List Char) :
    Reads (moreMembers true) (blanks ++ '"' :: rest) true ('"' :: rest) :=
  (reads_peekToken hblanks (by decide) rest).bind (.pure true _)

theorem reads_moreMembers_next (rest : List Char) :
    Reads (moreMembers false) (',' :: (blanks ++ '"' :: rest)) true ('"' :: rest) :=
  (reads_peekToken allBlank_nil (by decide) _).bind
    ((Reads.skip ',' _).bind ((reads_peekToken hblanks (by decide) rest).bind (.pure true _)))

theorem reads_moreMembers_end (first : Bool) (rest : List Char) :
    Reads (moreMembers first) (blanks ++ '\x7d' :: rest) false ('\x7d' :: rest) :=
  (reads_peekToken hblanks (by decide) rest).bind (.pure false _)

end

theorem reads_readColon (rest : List Char) : Reads readColon (':' :: rest) () rest :=
  (reads_peekToken allBlank_nil (by decide) rest).bind (.skip ':' rest)

theorem reads_endList (rest : List Char) : Reads endList (']' :: rest) () rest :=
  (reads_peekToken allBlank_nil (by decide) rest).bind (.skip ']' rest)

theorem reads_endObject (rest : List Char) : Reads endObject ('\x7d' :: rest) () rest :=
  (reads_peekToken allBlank_nil (by decide) rest).bind (.skip '\x7d' rest)

end CallAtlas.Json
