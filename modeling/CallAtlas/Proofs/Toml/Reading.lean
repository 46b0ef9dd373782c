import CallAtlas.Toml.Read
import Mathlib.Data.List.Basic
/-!
# What scanners read

`Reads p text P rest` says that a scanner takes a text to something with a property and leaves the
rest, wherever in a document it starts. The property leaves open what depends on that place, such as
the span of a value. The lemmas give this for the steps that scanners are made of.
-/

namespace CallAtlas.Toml

open Scan

variable {α β : Type} {p : Scan α} {P : α → Prop} {a : α} {text middle behind : List Char}

/-- From every place, the scanner takes the text to something with the property and leaves the
rest. -/
def Reads (p : Scan α) (text : List Char) (P : α → Prop) (rest : List Char) : Prop :=
  ∀ offset, ∃ a offset', p.run ⟨text, offset⟩ = .ok (a, ⟨rest, offset'⟩) ∧ P a

namespace Reads

theorem pure (h : P a) (text : List Char) : Reads (Pure.pure a) text P text :=
  fun offset => ⟨a, offset, rfl, h⟩

theorem returns (a : α) (text : List Char) : Reads (Pure.pure a) text (· = a) text :=
  fun offset => ⟨a, offset, rfl, rfl⟩

theorem mono {Q : α → Prop} (hp : Reads p text P behind) (h : ∀ a, P a → Q a) :
    Reads p text Q behind := by
  intro offset
  obtain ⟨a, offset', hrun, ha⟩ := hp offset
  exact ⟨a, offset', hrun, h a ha⟩

theorem bind {f : α → Scan β} {Q : β → Prop} (hp : Reads p text P middle)
    (hf : ∀ a, P a → Reads (f a) middle Q behind) : Reads (p >>= f) text Q behind := by
  intro offset
  obtain ⟨a, offset', hrun, ha⟩ := hp offset
  obtain ⟨b, last, hlast, hb⟩ := hf a ha offset'
  refine ⟨b, last, ?_, hb⟩
  rw [StateT.run_bind, hrun]
  exact hlast

/-- A sequence whose first part reads one value only. -/
theorem andThen {f : α → Scan β} {Q : β → Prop} (hp : Reads p text (· = a) middle)
    (hf : Reads (f a) middle Q behind) : Reads (p >>= f) text Q behind :=
  hp.bind fun _ h => h ▸ hf

theorem map {Q : β → Prop} (f : α → β) (hp : Reads p text P behind) (hf : ∀ a, P a → Q (f a)) :
    Reads (f <$> p) text Q behind := by
  rw [map_eq_pure_bind]
  exact hp.bind fun a ha => .pure (hf a ha) behind

theorem rest (text : List Char) : Reads Scan.rest text (· = text) text :=
  fun offset => ⟨text, offset, rfl, rfl⟩

theorem get (text : List Char) : Reads MonadState.get text (·.rest = text) text :=
  fun offset => ⟨⟨text, offset⟩, offset, rfl, rfl⟩

theorem offset (text : List Char) : Reads Scan.offset text (fun _ => True) text :=
  fun offset => ⟨offset, offset, rfl, trivial⟩

theorem peek (text : List Char) : Reads Scan.peek text (· = text.head?) text :=
  fun offset => ⟨text.head?, offset, rfl, rfl⟩

theorem skip (n : Nat) (text : List Char) : Reads (Scan.skip n) text (· = ()) (text.drop n) :=
  fun _ => ⟨(), _, rfl, rfl⟩

theorem skip_cons (c : Char) (behind : List Char) :
    Reads (Scan.skip 1) (c :: behind) (· = ()) behind :=
  .skip 1 (c :: behind)

/-- What is taken ends before the first character that does not satisfy the condition. -/
theorem takeWhile {q : Char → Bool} {taken : List Char} (htaken : ∀ c ∈ taken, q c = true)
    (hrest : ∀ c ∈ behind.head?, q c = false) :
    Reads (Scan.takeWhile q) (taken ++ behind) (· = taken) behind := by
  have hnext : behind.takeWhile q = [] := by
    cases behind with
    | nil => rfl
    | cons c behind => rw [List.takeWhile_cons, hrest c rfl, if_neg Bool.false_ne_true]
  have hall : (taken ++ behind).takeWhile q = taken := by
    rw [List.takeWhile_append_of_pos htaken, hnext, List.append_nil]
  unfold Scan.takeWhile
  refine (Reads.rest _).andThen ?_
  rw [hall]
  have hskip := Reads.skip taken.length (taken ++ behind)
  rw [List.drop_left] at hskip
  exact hskip.andThen (.returns _ behind)

theorem startsWith (word : String) (text : List Char) :
    Reads (Scan.startsWith word) text (· = word.toList.isPrefixOf text) text :=
  fun offset => ⟨_, offset, rfl, rfl⟩

theorem accept (word : String) (behind : List Char) :
    Reads (Scan.accept word) (word.toList ++ behind) (· = true) behind := by
  have hstarts : word.toList.isPrefixOf (word.toList ++ behind) = true := by simp
  unfold Scan.accept
  refine (Reads.startsWith word _).andThen ?_
  rw [hstarts]
  have hskip := Reads.skip word.length (word.toList ++ behind)
  rw [← String.length_toList, List.drop_left] at hskip
  exact hskip.andThen (.returns _ behind)

theorem accept_of_isPrefixOf {word : String} (h : word.toList.isPrefixOf text = false) :
    Reads (Scan.accept word) text (· = false) text := by
  unfold Scan.accept
  refine (Reads.startsWith word text).andThen ?_
  rw [h]
  exact .returns false text

/-- Nothing is accepted where another character comes next than the first one of the word. -/
theorem accept_none {word : String} {c : Char} {others : List Char}
    (hword : word.toList = c :: others) (h : text.head? ≠ some c) :
    Reads (Scan.accept word) text (· = false) text := by
  have hstarts : word.toList.isPrefixOf text = false := by
    rw [hword]
    cases text with
    | nil => rfl
    | cons d text =>
      have hne : (c == d) = false := beq_eq_false_iff_ne.2 fun hcd => h (congrArg some hcd.symm)
      rw [List.isPrefixOf, hne, Bool.false_and]
  exact accept_of_isPrefixOf hstarts

theorem discard (hp : Reads p text P behind) : Reads (Functor.discard p) text (· = ()) behind :=
  hp.map (fun _ => ()) fun _ _ => rfl

end Reads

/-! ### Blanks and line ends -/

/-- Whether a character stands neither in a gap nor at the end of a line. -/
def isSolid (c : Char) : Bool :=
  !(c == ' ' || c == '\t' || c == '#' || c == '\n' || c == '\r')

theorem reads_blanks (passed : List Char) (hpassed : ∀ c ∈ passed, c = ' ')
    (hbehind : ∀ c ∈ behind.head?, c ≠ ' ' ∧ c ≠ '\t') :
    Reads blanks (passed ++ behind) (· = ()) behind := by
  refine (Reads.takeWhile ?_ ?_).discard
  · intro c hc
    rw [hpassed c hc]
    rfl
  · intro c hc
    simpa using hbehind c hc

theorem reads_blanks_none (h : ∀ c ∈ text.head?, c ≠ ' ' ∧ c ≠ '\t') :
    Reads blanks text (· = ()) text :=
  reads_blanks [] (by simp) h

theorem reads_comment_none (h : text.head? ≠ some '#') : Reads comment text (· = ()) text := by
  unfold comment
  exact (Reads.accept_none rfl h).andThen (.returns () text)

theorem reads_newline (behind : List Char) : Reads newline ('\n' :: behind) (· = true) behind :=
  (Reads.accept "\n" behind).andThen (.returns true behind)

theorem reads_newline_none (hline : text.head? ≠ some '\n') (hreturn : text.head? ≠ some '\r') :
    Reads newline text (· = false) text :=
  (Reads.accept_none rfl hline).andThen (.accept_none rfl hreturn)

theorem reads_lineEnd (behind : List Char) : Reads lineEnd ('\n' :: behind) (· = ()) behind := by
  unfold lineEnd
  refine (reads_blanks_none (by simp)).andThen ?_
  refine (reads_comment_none (by simp)).andThen ?_
  refine (Reads.rest _).andThen ?_
  exact (reads_newline behind).andThen (.returns () behind)

section Gaps
variable {c : Char} (hc : isSolid c = true)
include hc

theorem reads_gapLines_blanks (fuel n : Nat) (behind : List Char) :
    Reads (gapLines (fuel + 1)) (List.replicate n ' ' ++ c :: behind) (· = ()) (c :: behind) := by
  simp only [isSolid, Bool.not_eq_true', Bool.or_eq_false_iff, beq_eq_false_iff_ne] at hc
  obtain ⟨⟨⟨⟨hblank, htab⟩, hcomment⟩, hline⟩, hreturn⟩ := hc
  unfold gapLines
  have hstop : ∀ d ∈ (c :: behind).head?, d ≠ ' ' ∧ d ≠ '\t' := by simpa using ⟨hblank, htab⟩
  refine (reads_blanks _ (fun d => List.eq_of_mem_replicate) hstop).andThen ?_
  refine (reads_comment_none (by simpa using hcomment)).andThen ?_
  refine (reads_newline_none (by simpa using hline) (by simpa using hreturn)).andThen ?_
  exact .returns () _

theorem reads_gap_none (behind : List Char) : Reads gap (c :: behind) (· = ()) (c :: behind) := by
  unfold gap
  exact (Reads.rest _).andThen (reads_gapLines_blanks hc _ 0 behind)

/-- The gap goes on behind a line end. -/
theorem reads_gap_line (n : Nat) (behind : List Char) :
    Reads gap ('\n' :: (List.replicate n ' ' ++ c :: behind)) (· = ()) (c :: behind) := by
  unfold gap
  refine (Reads.rest _).andThen ?_
  rw [List.length_cons, gapLines]
  refine (reads_blanks_none (by simp)).andThen ?_
  refine (reads_comment_none (by simp)).andThen ?_
  exact (reads_newline _).andThen (reads_gapLines_blanks hc _ n behind)

end Gaps

/-! ### Keys -/

theorem reads_keyPart {name : List Char} (hname : name ≠ [])
    (hchars : ∀ c ∈ name, isKeyChar c = true) (hbehind : ∀ c ∈ behind.head?, isKeyChar c = false) :
    Reads keyPart (name ++ behind) (·.name = String.ofList name) behind := by
  obtain ⟨c, others, rfl⟩ := List.exists_cons_of_ne_nil hname
  have hc : isKeyChar c = true := hchars c List.mem_cons_self
  unfold keyPart
  refine (Reads.offset _).bind fun start _ => ?_
  refine (Reads.peek _).andThen ?_
  dsimp only [List.cons_append, List.head?_cons]
  split
  · rename_i hquote
    cases hquote
    exact absurd hc (by decide)
  · rename_i hquote
    cases hquote
    exact absurd hc (by decide)
  · refine (Reads.takeWhile hchars hbehind).andThen ?_
    refine (Reads.returns (String.ofList (c :: others)) behind).andThen ?_
    exact (Reads.offset behind).bind fun _ _ => .pure (by rfl) behind

/-- A bare key before its sign is read with the blanks around it. -/
theorem reads_key {name : List Char} (hname : name ≠ [])
    (hchars : ∀ c ∈ name, isKeyChar c = true) (behind : List Char) :
    Reads key (name ++ ' ' :: '=' :: behind) (fun ks => ks.map (·.name) = [String.ofList name])
      ('=' :: behind) := by
  have hsolid : ∀ c ∈ (name ++ ' ' :: '=' :: behind).head?, c ≠ ' ' ∧ c ≠ '\t' := by
    intro c hc
    have hkey : isKeyChar c = true := by
      obtain ⟨d, others, rfl⟩ := List.exists_cons_of_ne_nil hname
      cases hc
      exact hchars _ List.mem_cons_self
    constructor <;> rintro rfl <;> exact absurd hkey (by decide)
  unfold key
  refine (reads_blanks_none hsolid).andThen ?_
  refine (reads_keyPart hname hchars (by simp [isKeyChar])).bind fun k hk => ?_
  refine (reads_blanks [' '] (by simp) (by simp)).andThen ?_
  refine (Reads.rest _).andThen ?_
  rw [List.length_cons, keyParts]
  refine (Reads.rest _).andThen ?_
  exact .pure (by simp [hk]) _

end CallAtlas.Toml
