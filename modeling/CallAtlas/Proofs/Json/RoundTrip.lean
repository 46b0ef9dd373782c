import CallAtlas.Proofs.Json.Reading
import CallAtlas.Proofs.Lists
/-!
# Reading what has been written

A reader inverts an encoder if it reads the pretty form of every encoded value back, on whatever
level the value is printed and whatever stands behind it. Texts, lists and maps are inverted, and so
are whole documents.
-/

namespace CallAtlas.Json

open Read
open Text (hexDigit utf8Size_hexDigit mapM_hexValue_fourDigits)

variable {α β : Type} {rest text : List Char}

/-! ### Texts -/

theorem reads_peekEscaped (c : Char) (rest : List Char) :
    Reads peekEscaped (c :: rest) c (c :: rest) :=
  (Reads.peek (c :: rest)).bind (.pure c _)

theorem reads_readEscape_plain {c d : Char} (h : plainEscape c = some d) (rest : List Char) :
    Reads readEscape (c :: rest) d rest := by
  apply (reads_peekEscaped c rest).bind
  rw [h]
  exact (Reads.skip c rest).bind (.pure d rest)

theorem passBytes_of_ascii {cs : List Char} (h : ∀ c ∈ cs, c.utf8Size = 1) (rest : List Char)
    (position : Position) :
    passBytes cs.length (cs ++ rest) position = some ⟨rest, cs.foldl Position.after position⟩ := by
  induction cs generalizing position with
  | nil => simp [passBytes]
  | cons c cs ih =>
    have hc : c.utf8Size = 1 := h c List.mem_cons_self
    rw [List.length_cons, List.cons_append, passBytes, hc, if_neg (by omega)]
    exact ih (fun d hd => h d (List.mem_cons_of_mem c hd)) (position.after c)

theorem reads_readCodeUnit {n : Nat} (h : n < 0x20) (rest : List Char) :
    Reads readCodeUnit ('0' :: '0' :: hexDigit .lower (n / 16) :: hexDigit .lower (n % 16) :: rest) n
      rest := by
  intro position
  have hascii : ∀ c ∈ ['0', '0', hexDigit .lower (n / 16), hexDigit .lower (n % 16)],
      c.utf8Size = 1 := by
    have hzero : '0'.utf8Size = 1 := by decide
    have hhigh : n / 16 < 16 := by omega
    have hlow : n % 16 < 16 := by omega
    simp [hzero, utf8Size_hexDigit hhigh, utf8Size_hexDigit hlow]
  have hbyte : n < 0x100 := by omega
  have hpass := passBytes_of_ascii hascii rest position
  simp only [List.length_cons, List.length_nil, List.cons_append, List.nil_append] at hpass
  refine ⟨['0', '0', hexDigit .lower (n / 16), hexDigit .lower (n % 16)].foldl Position.after
    position, ?_⟩
  simp [readCodeUnit, hpass, mapM_hexValue_fourDigits hbyte, Nat.div_add_mod]

theorem reads_readEscape_control {c : Char} (h : c.toNat < 0x20) (rest : List Char) :
    Reads readEscape ('u' :: '0' :: '0' :: hexDigit .lower (c.toNat / 16) ::
      hexDigit .lower (c.toNat % 16) :: rest) c rest := by
  apply (reads_peekEscaped 'u' _).bind
  apply (Reads.skip 'u' _).bind
  apply (reads_readCodeUnit h rest).bind
  rw [if_neg (by simp; omega), if_pos (by simp; omega), Char.ofNat_toNat]
  exact .pure c rest

/-- A character is printed by a letter behind a backslash, by its number, or as it is. -/
theorem escape_cases (c : Char) :
    (∃ e, plainEscape e = some c ∧ escape c = ['\\', e]) ∨
      (c.toNat < 0x20 ∧ escape c =
        ['\\', 'u', '0', '0', hexDigit .lower (c.toNat / 16), hexDigit .lower (c.toNat % 16)]) ∨
      (¬c.toNat < 0x20 ∧ c ≠ '"' ∧ c ≠ '\\' ∧ escape c = [c]) := by
  unfold escape
  split
  · exact .inl ⟨'"', rfl, rfl⟩
  · exact .inl ⟨'\\', rfl, rfl⟩
  · exact .inl ⟨'b', rfl, rfl⟩
  · exact .inl ⟨'f', rfl, rfl⟩
  · exact .inl ⟨'n', rfl, rfl⟩
  · exact .inl ⟨'r', rfl, rfl⟩
  · exact .inl ⟨'t', rfl, rfl⟩
  · rename_i hquote hbackslash _ _ _ _ _
    split
    · exact .inr (.inl ⟨‹_›, rfl⟩)
    · exact .inr (.inr ⟨‹_›, hquote, hbackslash, rfl⟩)

theorem reads_readText_escape {fuel : Nat} {before : List Char} {c : Char} {a : String}
    (h : Reads (readText fuel (c :: before)) text a rest) :
    Reads (readText (fuel + 1) before) (escape c ++ text) a rest := by
  have hescaped : ∀ {behind}, Reads readEscape behind c text →
      Reads (readText (fuel + 1) before) ('\\' :: behind) a rest := by
    intro behind hread
    apply (Reads.peek _).bind
    exact (Reads.skip '\\' _).bind (hread.bind h)
  rcases escape_cases c with ⟨e, hplain, hc⟩ | ⟨hcontrol, hc⟩ | ⟨hprintable, hquote, hbackslash, hc⟩
  · rw [hc]
    exact hescaped (reads_readEscape_plain hplain text)
  · rw [hc]
    exact hescaped (reads_readEscape_control hcontrol text)
  · rw [hc]
    apply (Reads.peek _).bind
    -- the reader takes a character as it is that ends no text and starts no escape sequence
    simp only [List.cons_append, List.head?_cons, List.nil_append]
    apply (Reads.skip c text).bind
    rw [if_neg hprintable]
    exact h

theorem reads_readText {cs : List Char} {fuel : Nat} (h : cs.length < fuel)
    (before rest : List Char) :
    Reads (readText fuel before) (cs.flatMap escape ++ '"' :: rest)
      (String.ofList (before.reverse ++ cs)) rest := by
  induction cs generalizing fuel before with
  | nil =>
    obtain ⟨fuel, rfl⟩ := Nat.exists_eq_add_of_lt h
    apply (Reads.peek _).bind
    rw [List.append_nil]
    exact (Reads.skip '"' rest).bind (.pure _ rest)
  | cons c cs ih =>
    cases fuel with
    | zero => exact absurd h (Nat.not_lt_zero _)
    | succ fuel =>
      rw [List.flatMap_cons, List.append_assoc, List.append_cons before.reverse c cs,
        ← List.reverse_cons]
      exact reads_readText_escape (ih (Nat.lt_of_succ_lt_succ h) (c :: before))

theorem escape_ne_nil (c : Char) : escape c ≠ [] := by
  rcases escape_cases c with ⟨e, -, hc⟩ | ⟨-, hc⟩ | ⟨-, -, -, hc⟩ <;> simp [hc]

theorem reads_readText_quote (t : String) (rest : List Char) :
    Reads (readText ((t.toList.flatMap escape ++ '"' :: rest).length + 1) [])
      (t.toList.flatMap escape ++ '"' :: rest) t rest := by
  have hfuel : t.toList.length < (t.toList.flatMap escape ++ '"' :: rest).length + 1 := by
    have := length_le_length_flatMap escape_ne_nil t.toList
    rw [List.length_append]
    omega
  have hread := reads_readText hfuel [] rest
  rwa [List.reverse_nil, List.nil_append, String.ofList_toList] at hread

/-! ### Encoders -/

/-- The reader reads back every value that the encoder makes JSON of. -/
def Inverts (p : Read α) (encode : α → Json) : Prop :=
  ∀ (a : α) (level : Nat) (blanks rest : List Char), AllBlank blanks →
    Reads p (blanks ++ ((encode a).prettyChars level ++ rest)) a rest

theorem readString_inverts : Inverts readString .string := by
  intro t level blanks rest hblanks
  rw [prettyChars, quote, List.cons_append, List.append_assoc]
  apply (reads_peekValue hblanks (by decide) _).bind
  apply (Reads.skip '"' _).bind
  exact (Reads.remaining _).bind (reads_readText_quote t rest)

theorem exists_prettyChars_eq_cons (level : Nat) (j : Json) :
    ∃ c text, j.prettyChars level = c :: text ∧ isBlank c = false ∧ c ≠ ']' := by
  unfold prettyChars
  split <;> exact ⟨_, _, rfl, by decide, by decide⟩

/-! ### Lists -/

section Lists
variable {p : Read α} {encode : α → Json} (hp : Inverts p encode)
variable {blanks : List Char} (hblanks : AllBlank blanks)

theorem length_le_length_prettyItems (level : Nat) (js : List Json) :
    js.length ≤ (prettyItems level js).length := by
  induction js with
  | nil => exact Nat.zero_le _
  | cons j js ih =>
    rw [prettyItems, List.length_cons, List.length_cons, List.length_append]
    omega

include hblanks in
theorem reads_readItems_end {fuel : Nat} (h : 0 < fuel) (before : List α) (rest : List Char) :
    Reads (readItems p fuel before) (blanks ++ ']' :: rest) before.reverse (']' :: rest) := by
  cases fuel with
  | zero => exact absurd h (Nat.lt_irrefl 0)
  | succ fuel => exact (reads_moreItems_end hblanks before.isEmpty rest).bind (.pure _ _)

include hp in
theorem reads_readItems_step {fuel level : Nat} {before as : List α} {a : α}
    {lead tail : List Char}
    (hmore : ∀ c s, isBlank c = false → c ≠ ']' →
      Reads (moreItems before.isEmpty) (lead ++ c :: s) true (c :: s))
    (hrest : Reads (readItems p fuel (a :: before)) tail as rest) :
    Reads (readItems p (fuel + 1) before) (lead ++ ((encode a).prettyChars level ++ tail)) as
      rest := by
  obtain ⟨c, text, htext, hblank, hend⟩ := exists_prettyChars_eq_cons level (encode a)
  have hitem := hp a level [] tail allBlank_nil
  rw [htext] at hitem ⊢
  exact (hmore c (text ++ tail) hblank hend).bind (hitem.bind hrest)

include hp hblanks in
theorem reads_readItems {as : List α} {fuel : Nat} (h : as.length < fuel) {before : List α}
    (hbefore : before ≠ []) (level : Nat) (rest : List Char) :
    Reads (readItems p fuel before)
      (prettyItems level (as.map encode) ++ (blanks ++ ']' :: rest)) (before.reverse ++ as)
      (']' :: rest) := by
  induction as generalizing fuel before with
  | nil =>
    rw [List.append_nil]
    exact reads_readItems_end hblanks h before rest
  | cons a as ih =>
    cases fuel with
    | zero => exact absurd h (Nat.not_lt_zero _)
    | succ fuel =>
      have hrest := ih (Nat.lt_of_succ_lt_succ h) (List.cons_ne_nil a before)
      rw [List.map_cons, prettyItems, List.append_cons before.reverse a as, ← List.reverse_cons,
        ← List.cons_append, ← List.cons_append, List.append_assoc, List.append_assoc]
      refine reads_readItems_step hp (fun c s hblank hend => ?_) hrest
      rw [List.isEmpty_eq_false_iff.2 hbefore]
      exact reads_moreItems_next (allBlank_newline level) hblank hend s

include hp in
theorem readList_inverts : Inverts (readList p) fun as => .array (as.map encode) := by
  intro as level blanks rest hblanks
  -- the text between the brackets has a character for every item, so that the fuel suffices
  have hlist : ∀ {body}, as.length ≤ body.length →
      (∀ fuel, as.length < fuel → Reads (readItems p fuel []) body as (']' :: rest)) →
      Reads (readList p) (blanks ++ '[' :: body) as rest := by
    intro body hlength hbody
    apply (reads_peekValue hblanks (by decide) body).bind
    apply (Reads.skip '[' body).bind
    apply (Reads.remaining body).bind
    exact ((hbody _ (Nat.lt_succ_of_le hlength)).thenEnd (reads_endList rest)).located
  cases as with
  | nil =>
    apply hlist (Nat.zero_le _)
    intro fuel hfuel
    exact reads_readItems_end allBlank_nil hfuel [] rest
  | cons a as =>
    show Reads _ (blanks ++ (prettyChars level (.array (encode a :: as.map encode)) ++ rest)) _ _
    rw [prettyChars]
    simp only [List.cons_append, List.append_assoc, List.nil_append]
    apply hlist
    · have := length_le_length_prettyItems (level + 1) (as.map encode)
      simp only [newline, List.length_append, List.length_cons, List.length_map] at this ⊢
      omega
    · intro fuel hfuel
      cases fuel with
      | zero => exact absurd hfuel (Nat.not_lt_zero _)
      | succ fuel =>
        have hrest := reads_readItems hp (allBlank_newline level) (Nat.lt_of_succ_lt_succ hfuel)
          (List.cons_ne_nil a []) (level + 1) rest
        exact reads_readItems_step hp
          (fun c s hblank hend => reads_moreItems_first (allBlank_newline (level + 1)) hblank hend s)
          hrest

end Lists

/-! ### Maps -/

section Members
variable {σ : Type} {member : σ → String → Read σ} {s t : σ} {key : String}
variable {first : Bool} {fuel : Nat} {tail middle : List Char}

theorem reads_readMembers_step
    (hmore : Reads (moreMembers first) text true (quote key ++ tail))
    (hmember : Reads (member s key) tail t middle)
    {u : σ} (hrest : Reads (readMembers member fuel false t) middle u rest) :
    Reads (readMembers member (fuel + 1) first s) text u rest := by
  rw [quote, List.cons_append, List.append_assoc] at hmore
  apply hmore.bind
  apply (Reads.skip '"' _).bind
  apply (Reads.remaining _).bind
  exact (reads_readText_quote key tail).bind (hmember.bind hrest)

theorem reads_readMembers_end {blanks : List Char} (hblanks : AllBlank blanks) (h : 0 < fuel)
    (rest : List Char) :
    Reads (readMembers member fuel first s) (blanks ++ '\x7d' :: rest) s ('\x7d' :: rest) := by
  cases fuel with
  | zero => exact absurd h (Nat.lt_irrefl 0)
  | succ fuel => exact (reads_moreMembers_end hblanks first rest).bind (.pure _ _)

end Members

section Maps
variable {p : Read α} {encode : α → Json} (hp : Inverts p encode)

theorem length_le_length_prettyMembers (level : Nat) (ms : List (String × Json)) :
    ms.length ≤ (prettyMembers level ms).length := by
  induction ms with
  | nil => exact Nat.zero_le _
  | cons m ms ih =>
    rw [prettyMembers, List.length_cons, List.length_cons, List.length_append]
    omega

include hp

theorem reads_readPair (pairs : List (String × α)) (key : String) (a : α) (level : Nat)
    (rest : List Char) :
    Reads (readPair p pairs key) (':' :: ' ' :: ((encode a).prettyChars level ++ rest))
      ((key, a) :: pairs) rest := by
  have hblank : AllBlank [' '] := allBlank_singleton rfl
  apply (reads_readColon _).bind
  exact (hp a level [' '] rest hblank).bind (.pure _ rest)

theorem reads_readMembers_readPair {ps : List (String × α)} {fuel : Nat} (h : ps.length < fuel)
    (pairs : List (String × α)) {blanks : List Char} (hblanks : AllBlank blanks) (level : Nat)
    (rest : List Char) :
    Reads (readMembers (readPair p) fuel false pairs)
      (prettyMembers level (ps.map fun (k, a) => (k, encode a)) ++ (blanks ++ '\x7d' :: rest))
      (ps.reverse ++ pairs) ('\x7d' :: rest) := by
  induction ps generalizing fuel pairs with
  | nil => exact reads_readMembers_end hblanks h rest
  | cons q ps ih =>
    obtain ⟨k, a⟩ := q
    cases fuel with
    | zero => exact absurd h (Nat.not_lt_zero _)
    | succ fuel =>
      have hrest := ih (Nat.lt_of_succ_lt_succ h) ((k, a) :: pairs)
      rw [List.map_cons, prettyMembers, List.reverse_cons, List.append_assoc]
      simp only [List.cons_append, List.append_assoc, List.nil_append] at hrest ⊢
      refine reads_readMembers_step ?_ (reads_readPair hp pairs k a level _) hrest
      exact reads_moreMembers_next (allBlank_newline level) _

theorem readMap_inverts :
    Inverts (readMap p) fun ps => .object (ps.map fun (k, a) => (k, encode a)) := by
  intro ps level blanks rest hblanks
  -- as for lists; the pairs are collected last first
  have hmap : ∀ {body}, ps.length ≤ body.length →
      (∀ fuel, ps.length < fuel →
        Reads (readMembers (readPair p) fuel true []) body ps.reverse ('\x7d' :: rest)) →
      Reads (readMap p) (blanks ++ '\x7b' :: body) ps rest := by
    intro body hlength hbody
    apply (reads_peekValue hblanks (by decide) body).bind
    apply (Reads.skip '\x7b' body).bind
    apply (Reads.remaining body).bind
    have hpairs := ((hbody _ (Nat.lt_succ_of_le hlength)).thenEnd (reads_endObject rest)).located
    have hresult := hpairs.bind (f := fun pairs => Pure.pure pairs.reverse) (.pure _ rest)
    rwa [List.reverse_reverse] at hresult
  cases ps with
  | nil =>
    apply hmap (Nat.zero_le _)
    intro fuel hfuel
    exact reads_readMembers_end allBlank_nil hfuel rest
  | cons q ps =>
    obtain ⟨k, a⟩ := q
    show Reads _ (blanks ++ (prettyChars level
      (.object ((k, encode a) :: ps.map fun (k, a) => (k, encode a))) ++ rest)) _ _
    rw [prettyChars]
    simp only [List.cons_append, List.append_assoc, List.nil_append]
    apply hmap
    · have := length_le_length_prettyMembers (level + 1) (ps.map fun (k, a) => (k, encode a))
      simp only [newline, List.length_append, List.length_cons, List.length_map] at this ⊢
      omega
    · intro fuel hfuel
      cases fuel with
      | zero => exact absurd hfuel (Nat.not_lt_zero _)
      | succ fuel =>
        have hrest := reads_readMembers_readPair hp (Nat.lt_of_succ_lt_succ hfuel) [(k, a)]
          (allBlank_newline level) (level + 1) rest
        rw [List.reverse_cons]
        refine reads_readMembers_step ?_ (reads_readPair hp [] k a (level + 1) _) hrest
        exact reads_moreMembers_first (allBlank_newline (level + 1)) _

end Maps

/-! ### Documents -/

/-- A document is read back by a reader that inverts its encoder. -/
theorem decode_document {p : Read α} {encode : α → Json} (hp : Inverts p encode) (a : α) :
    decode p (encode a).document = .ok a := by
  have hend : AllBlank ['\n'] := allBlank_singleton rfl
  have hread : Reads (readWhole p) ((encode a).prettyChars 0 ++ ['\n']) a [] :=
    (hp a 0 [] ['\n'] allBlank_nil).bind ((reads_peekToken_end hend).bind (.pure a []))
  obtain ⟨last, hlast⟩ := hread ⟨1, 0⟩
  rw [decode, document, String.toList_ofList]
  exact congrArg Prod.fst hlast

end CallAtlas.Json
