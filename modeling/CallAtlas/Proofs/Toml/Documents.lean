import CallAtlas.Proofs.Toml.Values
/-!
# Documents that are read back

A document of one table, each line of which has a bare key and a written value, is read as the table
with these members in their order.
-/

namespace CallAtlas.Toml

open Scan

/-! ### Contents -/

/-- What the member of a table can be meant to hold. -/
inductive Content where
  | text (t : String)
  | texts (ts : List String)
  | number (n : Nat)
  | truth (b : Bool)

namespace Content

/-- The written form of a content. -/
def written : Content → String
  | text t => Text.write t
  | texts ts => Text.writeList ts
  | number n => toString n
  | truth b => if b then "true" else "false"

/-- The value is what is meant, whatever the spans inside it are. -/
def Holds : Content → Value → Prop
  | text t, v => v = .string t
  | texts ts, v => IsTexts ts v
  | number n, v => v = .integer n
  | truth b, v => v = .boolean b

/-- A number is not too large for a document. -/
def Fits : Content → Prop
  | number n => n ≤ 0x7FFFFFFFFFFFFFFF
  | _ => True

theorem readsValue {m : Content} (h : m.Fits) : ReadsValue 2 m.written.toList m.Holds := by
  have hdeeper : ∀ {text : List Char} {P : Value → Prop},
      ReadsValue 1 text P → ReadsValue 2 text P :=
    fun hread nesting hnesting => hread nesting (Nat.le_of_succ_le hnesting)
  cases m with
  | text t => exact hdeeper (readsValue_write t)
  | texts ts => exact readsValue_writeList ts
  | number n => exact hdeeper (readsValue_toString h)
  | truth b =>
    cases b with
    | true => exact hdeeper readsValue_true
    | false => exact hdeeper readsValue_false

end Content

theorem Content.exists_written (m : Content) :
    ∃ c others, m.written.toList = c :: others ∧ isSolid c = true := by
  cases m with
  | text t => exact isSolid_write t
  | texts ts =>
    match ts with
    | [] => exact ⟨'[', _, rfl, rfl⟩
    | [t] => exact ⟨'[', (Text.write t).toList ++ [']'], by simp [written, Text.writeList], rfl⟩
    | t :: u :: ts =>
      obtain ⟨inside, hinside, -⟩ := reads_items_writeList 0 (t :: u :: ts) []
      exact ⟨'[', inside, by simpa [written] using hinside, rfl⟩
  | number n =>
    obtain ⟨d, others, hdigits⟩ :=
      List.exists_cons_of_ne_nil (Nat.toDigits_ne_nil (n := n) (b := 10))
    have hd : d.isDigit = true :=
      Nat.isDigit_of_mem_toDigits (by decide) (by decide) (hdigits ▸ List.mem_cons_self)
    refine ⟨d, others, ?_, ?_⟩
    · rw [written, Nat.toString_eq_ofList_toDigits, String.toList_ofList, hdigits]
    · by_contra hsolid
      simp only [isSolid, Bool.not_eq_true', Bool.not_eq_false, Bool.or_eq_true, beq_iff_eq]
        at hsolid
      rcases hsolid with (((rfl | rfl) | rfl) | rfl) | rfl <;> exact absurd hd (by decide)
  | truth b => cases b <;> exact ⟨_, _, rfl, rfl⟩

/-! ### Lines -/

/-- A key that is written without quotation marks. -/
def IsBare (key : String) : Prop := key.toList ≠ [] ∧ ∀ c ∈ key.toList, isKeyChar c = true

instance (key : String) : Decidable (IsBare key) :=
  -- going through the characters of the key, not through all characters
  letI : Decidable (∀ c ∈ key.toList, isKeyChar c = true) := List.decidableBAll _ _
  inferInstanceAs (Decidable (_ ∧ _))

/-- The line of a member. -/
def memberLine (m : String × Content) : List Char :=
  m.1.toList ++ ' ' :: '=' :: ' ' :: (m.2.written.toList ++ ['\n'])

/-- The member of a table that a line stands for. -/
def IsMember (m : String × Content) (member : String × Span × Value) : Prop :=
  member.1 = m.1 ∧ m.2.Holds member.2.2

variable {d : Document} {m : String × Content} {ms : List (String × Content)}

theorem insertAt_root {key : Key} (h : key.name ∉ d.root.map (·.1)) (table : Option (List String))
    (v : Span × Value) :
    Members.insertAt table [] key v [] d.root = .ok (d.root ++ [(key.name, v)]) := by
  have hnone : d.root.get? key.name = none := by
    rw [Members.get?, List.lookup_eq_none_iff]
    intro member hmember
    rw [bne_iff_ne]
    exact fun heq => h (List.mem_map.2 ⟨member, hmember, heq.symm⟩)
  unfold Members.insertAt
  rw [hnone]
  rfl

theorem reads_pair (hd : d.current = []) (hkey : IsBare m.1) (hfits : m.2.Fits)
    (hnew : m.1 ∉ d.root.map (·.1)) (behind : List Char) :
    Reads (pair d) (memberLine m ++ behind)
      (fun d' => d'.current = [] ∧ ∃ member, d'.root = d.root ++ [member] ∧ IsMember m member)
      behind := by
  have htext : memberLine m ++ behind =
      m.1.toList ++ ' ' :: '=' :: ' ' :: (m.2.written.toList ++ '\n' :: behind) := by
    simp [memberLine]
  rw [htext]
  unfold pair
  refine (Reads.offset _).bind fun start _ => ?_
  refine (reads_key hkey.1 hkey.2 _).bind fun path hpath => ?_
  obtain ⟨key, rfl, hname⟩ : ∃ key : Key, path = [key] ∧ key.name = m.1 := by
    obtain ⟨key, rfl, hname⟩ := List.map_eq_singleton_iff.1 hpath
    exact ⟨key, rfl, hname.trans String.ofList_toList⟩
  have hinsert := insertAt_root (hname.symm ▸ hnew) (some (d.current.map (·.name)))
  refine (Reads.andThen (Reads.accept "=" _) (.returns () _)).andThen ?_
  refine (reads_blanks [' '] (by simp) ?_).andThen ?_
  · intro c hc
    obtain ⟨e, others, hwritten, hsolid⟩ := m.2.exists_written
    rw [hwritten] at hc
    cases hc
    constructor <;> rintro rfl <;> exact absurd hsolid (by decide)
  · have hmust : Reads (must value) (m.2.written.toList ++ '\n' :: behind)
        (fun v => m.2.Holds v.2) ('\n' :: behind) := by
      unfold must
      refine (Content.readsValue hfits (maxNesting + 1) (by decide) '\n' behind (.inl rfl)).bind ?_
      rintro r ⟨span, v, rfl, hv⟩
      exact .pure (by exact hv) _
    refine hmust.bind fun v hv => ?_
    refine (reads_lineEnd behind).andThen ?_
    rw [hd] at hinsert ⊢
    simp only [List.getLast?_singleton, List.dropLast_singleton, Members.alterAt, hinsert v]
    exact .pure ⟨rfl, _, rfl, hname, hv⟩ behind

/-- A line that begins with a key is neither blank, nor a comment, nor the head of a table. -/
theorem reads_lines_pair {P Q : Document → Prop} {fuel : Nat} {behind middle last : List Char}
    (hkey : IsBare m.1) (hpair : Reads (pair d) (memberLine m ++ behind) P middle)
    (hrest : ∀ d', P d' → Reads (lines fuel d') middle Q last) :
    Reads (lines (fuel + 1) d) (memberLine m ++ behind) Q last := by
  obtain ⟨c, others, hname⟩ := List.exists_cons_of_ne_nil hkey.1
  have hc : isKeyChar c = true := hkey.2 c (hname ▸ List.mem_cons_self)
  have hother : ∀ e, isKeyChar e = false → c ≠ e := by
    rintro e he rfl
    rw [hc] at he
    cases he
  have hline : memberLine m ++ behind =
      c :: (others ++ ' ' :: '=' :: ' ' :: (m.2.written.toList ++ '\n' :: behind)) := by
    simp [memberLine, hname]
  unfold lines
  rw [hline] at hpair ⊢
  refine (reads_blanks_none (by simp [hother ' ' rfl, hother '\t' rfl])).andThen ?_
  refine (Reads.peek _).andThen ?_
  dsimp only [List.head?_cons]
  split
  · rename_i hnone
    cases hnone
  · rename_i hcomment
    exact absurd (Option.some.inj hcomment) (hother '#' rfl)
  · rename_i hheader
    exact absurd (Option.some.inj hheader) (hother '[' rfl)
  · rename_i hsome
    cases hsome
    rw [if_neg (by simp [hother '\n' rfl, hother '\r' rfl])]
    exact hpair.bind hrest

theorem reads_lines (hd : d.current = []) (hkeys : ∀ m ∈ ms, IsBare m.1)
    (hfits : ∀ m ∈ ms, m.2.Fits) (hdistinct : (d.root.map (·.1) ++ ms.map (·.1)).Nodup)
    {fuel : Nat} (h : ms.length < fuel) :
    Reads (lines fuel d) (ms.flatMap memberLine)
      (fun d' => ∃ members, d'.root = d.root ++ members ∧ List.Forall₂ IsMember ms members) [] := by
  induction ms generalizing d fuel with
  | nil =>
    obtain ⟨fuel, rfl⟩ := Nat.exists_eq_add_of_lt h
    unfold lines
    refine (reads_blanks_none (by simp)).andThen ?_
    exact (Reads.peek _).andThen (.pure ⟨[], (List.append_nil _).symm, .nil⟩ _)
  | cons m ms ih =>
    obtain ⟨fuel, rfl⟩ := Nat.exists_eq_add_of_lt h
    have hnew : m.1 ∉ d.root.map (·.1) := by
      intro hmem
      exact (List.nodup_append.1 hdistinct).2.2 _ hmem _ List.mem_cons_self rfl
    have hpair := reads_pair hd (hkeys m List.mem_cons_self) (hfits m List.mem_cons_self) hnew
      (ms.flatMap memberLine)
    rw [List.flatMap_cons]
    refine reads_lines_pair (hkeys m List.mem_cons_self) hpair ?_
    rintro d' ⟨hd', member, hroot, hmember⟩
    refine (ih hd' (fun m hm => hkeys m (List.mem_cons_of_mem _ hm))
      (fun m hm => hfits m (List.mem_cons_of_mem _ hm)) ?_ ?_).mono ?_
    · rw [hroot, List.map_append, List.append_assoc, List.map_singleton, hmember.1]
      exact hdistinct
    · rw [List.length_cons]
      omega
    · rintro d'' ⟨members, hroot', hmembers⟩
      refine ⟨member :: members, ?_, .cons hmember hmembers⟩
      rw [hroot', hroot, List.append_assoc, List.singleton_append]

/-- A document is read as the table of its members. -/
theorem exists_read (hkeys : ∀ m ∈ ms, IsBare m.1) (hfits : ∀ m ∈ ms, m.2.Fits)
    (hdistinct : (ms.map (·.1)).Nodup) {text : String}
    (htext : text.toList = ms.flatMap memberLine) :
    ∃ members, read text = .ok members ∧ List.Forall₂ IsMember ms members := by
  have hmark : ¬(text.toList.head? == some '\ufeff') = true := by
    rw [htext, beq_iff_eq]
    intro hhead
    cases ms with
    | nil => cases hhead
    | cons m ms =>
      obtain ⟨c, others, hname⟩ := List.exists_cons_of_ne_nil (hkeys m List.mem_cons_self).1
      rw [List.flatMap_cons, memberLine, hname] at hhead
      cases hhead
      exact absurd ((hkeys m List.mem_cons_self).2 _ (hname ▸ List.mem_cons_self)) (by decide)
  have hlength : ms.length < (ms.flatMap memberLine).length + 1 :=
    Nat.lt_succ_of_le (length_le_length_flatMap (by simp [memberLine]) ms)
  obtain ⟨d, offset, hrun, members, hroot, hmembers⟩ :=
    reads_lines (d := {}) rfl hkeys hfits hdistinct hlength 0
  refine ⟨members, ?_, hmembers⟩
  unfold read
  dsimp only
  rw [if_neg hmark, htext, hrun]
  exact congrArg Except.ok hroot

end CallAtlas.Toml
