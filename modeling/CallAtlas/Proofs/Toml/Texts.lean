import CallAtlas.Proofs.Toml.Reading
import CallAtlas.Toml.Text
import Mathlib.Data.List.Infix
/-!
# Texts that are read back

Whatever text is written, in whichever of the four forms, is read back, as long as no mark follows
that could belong to it. In the forms with three marks a reader asks before every character whether
the text ends here, so that what matters of a text is where its runs of marks stand.
-/

namespace CallAtlas.Toml

open Scan

variable {P : String → Prop} {c mark : Char} {cs shown text behind before : List Char}
variable {fuel run : Nat} {long : Bool}

/-! ### Escape sequences -/

/-- Behind a backslash, some characters are an escape sequence for a character. -/
structure IsEscape (shown : List Char) (c : Char) : Prop where
  reads : ∀ behind, Reads Scan.escape (shown ++ behind) (· = c) behind
  /-- No line end is taken for escaped. -/
  isLineEnd : ∀ behind, isLineEnd (shown ++ behind) = false

theorem reads_codePoint (h : c.toNat < 0x100) (behind : List Char) :
    Reads (codePoint 4)
      ('0' :: '0' :: Text.hexDigit .upper (c.toNat / 16) ::
        Text.hexDigit .upper (c.toNat % 16) :: behind) (· = c) behind := by
  have hnumber : [0, 0, c.toNat / 16, c.toNat % 16].foldl (fun n d => 16 * n + d) 0 = c.toNat :=
    by simp [Nat.div_add_mod]
  have hchar : ∀ n (hn : n = c.toNat) (hvalid : n.isValidChar), Char.ofNatAux n hvalid = c := by
    rintro _ rfl hvalid
    have hround := Char.ofNat_toNat c
    rwa [Char.ofNat, dif_pos hvalid] at hround
  unfold codePoint
  refine (Reads.rest _).andThen ?_
  dsimp only [List.take_succ_cons, List.take_zero]
  rw [Text.mapM_hexValue_fourDigits h]
  dsimp only
  rw [if_neg (by simp), dif_pos (hnumber.symm.subst c.valid)]
  refine (Reads.skip 4 _).andThen ?_
  exact .pure (by exact hchar _ hnumber _) behind

theorem isEscape_number (h : c.toNat < 0x100) :
    IsEscape ['u', '0', '0', Text.hexDigit .upper (c.toNat / 16),
      Text.hexDigit .upper (c.toNat % 16)] c where
  reads behind :=
    (Reads.peek _).andThen ((Reads.skip_cons 'u' _).andThen (reads_codePoint h behind))
  isLineEnd _ := rfl

/-- The escape sequences of one character, with what they stand for. -/
def shortEscapes : List (Char × Char) :=
  [('b', '\x08'), ('t', '\t'), ('n', '\n'), ('f', '\x0c'), ('r', '\r'), ('"', '"'), ('\\', '\\')]

theorem isEscape_short {d : Char} (h : (d, c) ∈ shortEscapes) : IsEscape [d] c := by
  simp only [shortEscapes, List.mem_cons, List.not_mem_nil, or_false, Prod.mk.injEq] at h
  obtain ⟨rfl, rfl⟩ | ⟨rfl, rfl⟩ | ⟨rfl, rfl⟩ | ⟨rfl, rfl⟩ | ⟨rfl, rfl⟩ | ⟨rfl, rfl⟩ |
    ⟨rfl, rfl⟩ := h
  all_goals
    exact ⟨fun behind =>
      (Reads.peek _).andThen ((Reads.skip_cons _ behind).andThen (.returns _ behind)), fun _ => rfl⟩

theorem exists_escapeControl (h : c.toNat < 0x20 ∨ c = '\x7f') :
    ∃ shown, Text.escapeControl c = '\\' :: shown ∧ IsEscape shown c := by
  unfold Text.escapeControl
  split
  · exact ⟨['b'], rfl, isEscape_short (by decide)⟩
  · exact ⟨['t'], rfl, isEscape_short (by decide)⟩
  · exact ⟨['n'], rfl, isEscape_short (by decide)⟩
  · exact ⟨['f'], rfl, isEscape_short (by decide)⟩
  · exact ⟨['r'], rfl, isEscape_short (by decide)⟩
  · refine ⟨_, rfl, isEscape_number ?_⟩
    rcases h with h | rfl
    · omega
    · decide

theorem isCommentChar_of_not (hcontrol : ¬(c.toNat < 0x20 ∨ c = '\x7f')) :
    isCommentChar c = true := by
  rw [not_or, Nat.not_lt] at hcontrol
  have hblank : ' ' ≤ c := hcontrol.1
  simp [isCommentChar, hblank, hcontrol.2]

/-- How a text with escapes shows its first character: by an escape sequence, as a quotation mark of
a short run, or as it is. -/
theorem escape_cons (long : Bool) (run : Nat) (c : Char) (cs : List Char) :
    (∃ shown, Text.escape long run (c :: cs) = '\\' :: (shown ++ Text.escape long 0 cs) ∧
      IsEscape shown c) ∨
    (c = '"' ∧ long = true ∧ run < 2 ∧
      Text.escape long run (c :: cs) = '"' :: Text.escape long (run + 1) cs) ∨
    ((isCommentChar c = true ∨ long = true ∧ c = '\n') ∧ c ≠ '"' ∧ c ≠ '\\' ∧
      Text.escape long run (c :: cs) = c :: Text.escape long 0 cs) := by
  by_cases hquote : c = '"'
  · subst hquote
    have hescaped : IsEscape ['"'] '"' := isEscape_short (by decide)
    by_cases hrun : run + 1 ≤ if long then 2 else 0
    · cases long with
      | false => exact absurd hrun (Nat.not_succ_le_zero run)
      | true => exact .inr (.inl ⟨rfl, rfl, hrun, by rw [Text.escape, if_pos hrun]⟩)
    · exact .inl ⟨['"'], by rw [Text.escape, if_neg hrun]; rfl, hescaped⟩
  by_cases hbackslash : c = '\\'
  · subst hbackslash
    exact .inl ⟨['\\'], rfl, isEscape_short (by decide)⟩
  by_cases hline : c = '\n'
  · subst hline
    cases long with
    | false => exact .inl ⟨['n'], rfl, isEscape_short (by decide)⟩
    | true => exact .inr (.inr ⟨.inr ⟨rfl, rfl⟩, by decide, by decide, rfl⟩)
  rw [Text.escape.eq_5 long run c cs hquote hbackslash hline]
  by_cases hcontrol : c.toNat < 0x20 ∨ c = '\x7f'
  · obtain ⟨shown, hshown, hescape⟩ := exists_escapeControl hcontrol
    rw [if_pos (by simpa using hcontrol), hshown]
    exact .inl ⟨shown, rfl, hescape⟩
  · rw [if_neg (by simpa using hcontrol)]
    exact .inr (.inr ⟨.inl (isCommentChar_of_not hcontrol), hquote, hbackslash, rfl⟩)

/-! ### Texts in quotation marks -/

theorem reads_basicRest_escape (hescape : IsEscape shown c)
    (h : Reads (basicRest fuel (c :: before)) text P behind) :
    Reads (basicRest (fuel + 1) before) ('\\' :: (shown ++ text)) P behind := by
  unfold basicRest
  refine (Reads.peek _).andThen ?_
  exact (Reads.skip_cons _ _).andThen ((hescape.reads text).andThen h)

theorem reads_basicRest_char (hchar : isCommentChar c = true) (hquote : c ≠ '"')
    (hbackslash : c ≠ '\\') (h : Reads (basicRest fuel (c :: before)) text P behind) :
    Reads (basicRest (fuel + 1) before) (c :: text) P behind := by
  unfold basicRest
  refine (Reads.peek _).andThen ?_
  simp only [List.head?_cons]
  rw [if_pos hchar]
  exact (Reads.skip_cons c text).andThen h

theorem reads_basicRest (h : cs.length < fuel) (before behind : List Char) :
    Reads (basicRest fuel before) (Text.escape false run cs ++ '"' :: behind)
      (· = String.ofList (before.reverse ++ cs)) behind := by
  induction cs generalizing fuel before run with
  | nil =>
    obtain ⟨fuel, rfl⟩ := Nat.exists_eq_add_of_lt h
    rw [List.append_nil]
    exact (Reads.peek _).andThen ((Reads.skip_cons _ behind).andThen (.returns _ behind))
  | cons c cs ih =>
    cases fuel with
    | zero => exact absurd h (Nat.not_lt_zero _)
    | succ fuel =>
      have hshorter : cs.length < fuel := Nat.lt_of_succ_lt_succ h
      rw [List.append_cons before.reverse c cs, ← List.reverse_cons]
      rcases escape_cons false run c cs with
        ⟨shown, hc, hescape⟩ | ⟨-, hlong, -⟩ | ⟨hchar, hquote, hbackslash, hc⟩
      · rw [hc, List.cons_append, List.append_assoc]
        exact reads_basicRest_escape hescape (ih hshorter _)
      · cases hlong
      · rw [hc, List.cons_append]
        exact reads_basicRest_char (by simpa using hchar) hquote hbackslash (ih hshorter _)

/-! ### Runs of marks -/

theorem le_longestRun (mark : Char) (run best : Nat) (cs : List Char) :
    best ≤ Text.longestRun mark run best cs := by
  fun_induction Text.longestRun mark run best cs with
  | case1 => exact Nat.le_refl _
  | case2 run best d rest hd ih => omega
  | case3 run best d rest hd ih => exact ih

theorem add_le_longestRun {k : Nat} (run best : Nat) (hk : 0 < k)
    (h : List.replicate k mark <+: cs) : run + k ≤ Text.longestRun mark run best cs := by
  induction cs generalizing k run best with
  | nil =>
    have := h.length_le
    rw [List.length_replicate, List.length_nil] at this
    omega
  | cons d cs ih =>
    obtain ⟨k, rfl⟩ := Nat.exists_eq_add_of_lt hk
    rw [Nat.zero_add, List.replicate_succ] at h
    obtain ⟨rfl, hprefix⟩ := List.cons_prefix_cons.1 h
    rw [Text.longestRun, if_pos (beq_self_eq_true mark)]
    rcases Nat.eq_zero_or_pos k with rfl | hpos
    · have := le_longestRun mark (run + 1) (max best (run + 1)) cs
      omega
    · have := ih (run + 1) (max best (run + 1)) hpos hprefix
      omega

/-- No run of a character is longer than the longest one. -/
theorem le_longestRun_of_infix {k : Nat} (run best : Nat) (h : List.replicate k mark <:+: cs) :
    k ≤ Text.longestRun mark run best cs := by
  induction cs generalizing run best with
  | nil =>
    have := h.length_le
    rw [List.length_replicate, List.length_nil] at this
    omega
  | cons d cs ih =>
    rcases Nat.eq_zero_or_pos k with rfl | hpos
    · exact Nat.zero_le _
    rcases List.infix_cons_iff.1 h with hprefix | hinfix
    · have := add_le_longestRun run best hpos hprefix
      omega
    · rw [Text.longestRun]
      split
      · exact ih _ _ hinfix
      · exact ih _ _ hinfix

theorem closing_replicate (mark : Char) {k : Nat} (hk : k ≤ 2)
    (hbehind : behind.head? ≠ some mark) :
    closing mark (List.replicate k mark ++ mark :: mark :: mark :: behind) = some k := by
  have hnext : behind.takeWhile (· == mark) = [] := by
    cases behind with
    | nil => rfl
    | cons c behind =>
      have hc : ¬(c == mark) = true := by simpa using hbehind
      rw [List.takeWhile_cons, if_neg hc]
  have hrun : ((List.replicate k mark ++ mark :: mark :: mark :: behind).takeWhile
      (· == mark)).length = k + 3 := by
    rw [List.takeWhile_append_of_pos (by simp +contextual)]
    simp [hnext]
  unfold closing
  simp only [hrun]
  rw [if_neg (by omega)]
  congr 1
  omega

theorem closing_eq_none {k : Nat} (hk : k ≤ 2) (hc : c ≠ mark) (text : List Char) :
    closing mark (List.replicate k mark ++ c :: text) = none := by
  have hrun : ((List.replicate k mark ++ c :: text).takeWhile (· == mark)).length = k := by
    rw [List.takeWhile_append_of_pos (by simp +contextual)]
    simp [hc]
  unfold closing
  simp only [hrun]
  rw [if_pos (by omega)]

/-- A text begins with a run of marks, behind which it ends or goes on. -/
theorem run_cases (mark : Char) (cs : List Char) :
    (∃ k, cs = List.replicate k mark) ∨
      ∃ k c tail, c ≠ mark ∧ cs = List.replicate k mark ++ c :: tail := by
  induction cs with
  | nil => exact .inl ⟨0, rfl⟩
  | cons d cs ih =>
    by_cases hd : d = mark
    · subst hd
      rcases ih with ⟨k, rfl⟩ | ⟨k, c, tail, hc, rfl⟩
      · exact .inl ⟨k + 1, rfl⟩
      · exact .inr ⟨k + 1, c, tail, hc, rfl⟩
    · exact .inr ⟨0, d, cs, hd, rfl⟩

/-! ### Texts in three apostrophes -/

theorem reverse_replicate_append (mark : Char) (k : Nat) (before : List Char) :
    (List.replicate k mark ++ before).reverse = before.reverse ++ List.replicate k mark := by
  rw [List.reverse_append, List.reverse_replicate]

theorem drop_closing (mark : Char) (k : Nat) (behind : List Char) :
    (List.replicate k mark ++ mark :: mark :: mark :: behind).drop (k + 3) = behind := by
  rw [List.drop_append, List.length_replicate, List.drop_of_length_le (by simp)]
  simp

theorem reads_longPlainRest_end {k : Nat} (hk : k ≤ 2) (hbehind : behind.head? ≠ some '\'')
    (fuel : Nat) (before : List Char) :
    Reads (longPlainRest (fuel + 1) before)
      (List.replicate k '\'' ++ '\'' :: '\'' :: '\'' :: behind)
      (· = String.ofList (before.reverse ++ List.replicate k '\'')) behind := by
  unfold longPlainRest
  refine (Reads.rest _).andThen ?_
  rw [closing_replicate _ hk hbehind]
  have hskip := Reads.skip (k + 3) (List.replicate k '\'' ++ '\'' :: '\'' :: '\'' :: behind)
  rw [drop_closing] at hskip
  refine hskip.andThen ?_
  rw [reverse_replicate_append]
  exact .returns _ behind

theorem reads_longPlainRest_char (hclosing : closing '\'' (c :: text) = none)
    (hchar : isCommentChar c = true ∨ c = '\n')
    (h : Reads (longPlainRest fuel (c :: before)) text P behind) :
    Reads (longPlainRest (fuel + 1) before) (c :: text) P behind := by
  unfold longPlainRest
  refine (Reads.rest _).andThen ?_
  simp only [hclosing]
  split
  · rename_i hreturn
    cases hreturn
    exact absurd hchar (by decide)
  · rename_i hcons
    cases hcons
    rw [if_pos (by simpa using hchar)]
    exact (Reads.skip_cons c text).andThen h
  · rename_i hnil
    cases hnil

theorem reads_longPlainRest (h : cs.length < fuel)
    (hchars : ∀ c ∈ cs, isCommentChar c = true ∨ c = '\n')
    (hruns : ∀ k, List.replicate k '\'' <:+: cs → k ≤ 2) (hbehind : behind.head? ≠ some '\'')
    (before : List Char) :
    Reads (longPlainRest fuel before) (cs ++ '\'' :: '\'' :: '\'' :: behind)
      (· = String.ofList (before.reverse ++ cs)) behind := by
  induction cs generalizing fuel before with
  | nil =>
    obtain ⟨fuel, rfl⟩ := Nat.exists_eq_add_of_lt h
    exact reads_longPlainRest_end (Nat.zero_le 2) hbehind _ before
  | cons c cs ih =>
    obtain ⟨fuel, rfl⟩ := Nat.exists_eq_add_of_lt h
    rcases run_cases '\'' (c :: cs) with ⟨k, hmarks⟩ | ⟨k, d, tail, hd, htext⟩
    · have hk : k ≤ 2 := hruns k (hmarks ▸ List.infix_rfl)
      rw [hmarks]
      exact reads_longPlainRest_end hk hbehind _ before
    · have hk : k ≤ 2 := hruns k ⟨[], d :: tail, htext ▸ rfl⟩
      have hclosing := closing_eq_none hk hd (tail ++ '\'' :: '\'' :: '\'' :: behind)
      rw [← List.cons_append, ← List.append_assoc, ← htext] at hclosing
      rw [List.append_cons before.reverse c cs, ← List.reverse_cons]
      refine reads_longPlainRest_char hclosing (hchars c List.mem_cons_self) ?_
      refine ih (by rw [List.length_cons]; omega) (fun d hd => hchars d (List.mem_cons_of_mem c hd))
        (fun k hk => hruns k (hk.trans (List.suffix_cons c cs).isInfix)) _

/-! ### Texts in three quotation marks -/

/-- The written text begins with at most two quotation marks, counted on from those just before. -/
theorem add_le_of_prefix_escape {k : Nat} (hk : 0 < k)
    (h : List.replicate k '"' <+: Text.escape true run cs) : run + k ≤ 2 := by
  induction cs generalizing k run with
  | nil =>
    have := h.length_le
    rw [List.length_replicate, Text.escape, List.length_nil] at this
    omega
  | cons c cs ih =>
    obtain ⟨k, rfl⟩ := Nat.exists_eq_add_of_lt hk
    rw [Nat.zero_add, List.replicate_succ] at h
    rcases escape_cons true run c cs with
      ⟨shown, hc, -⟩ | ⟨-, -, hrun, hc⟩ | ⟨-, hquote, -, hc⟩
    · rw [hc] at h
      exact absurd (List.cons_prefix_cons.1 h).1 (by decide)
    · rw [hc] at h
      rcases Nat.eq_zero_or_pos k with rfl | hpos
      · omega
      · have := ih hpos (List.cons_prefix_cons.1 h).2
        omega
    · rw [hc] at h
      exact absurd (List.cons_prefix_cons.1 h).1 (Ne.symm hquote)

/-- Only quotation marks are written as nothing but quotation marks. -/
theorem eq_of_escape_eq_replicate {k : Nat} (h : Text.escape true run cs = List.replicate k '"') :
    cs = List.replicate k '"' := by
  induction cs generalizing k run with
  | nil =>
    have := congrArg List.length h
    rw [Text.escape, List.length_nil, List.length_replicate] at this
    rw [← this, List.replicate_zero]
  | cons c cs ih =>
    have hhead : ∀ {d : Char} {text : List Char},
        Text.escape true run (c :: cs) = d :: text → d = '"' ∧ ∃ j, k = j + 1 ∧
          text = List.replicate j '"' := by
      intro d text hd
      rw [hd] at h
      cases k with
      | zero => cases h
      | succ j => exact ⟨(List.cons.inj h).1, j, rfl, (List.cons.inj h).2⟩
    rcases escape_cons true run c cs with
      ⟨shown, hc, -⟩ | ⟨hquote, -, -, hc⟩ | ⟨-, hquote, -, hc⟩
    · exact absurd (hhead hc).1 (by decide)
    · obtain ⟨-, j, rfl, htext⟩ := hhead hc
      rw [ih htext, hquote, List.replicate_succ]
    · exact absurd (hhead hc).1 hquote

theorem reads_longBasicRest_end {k : Nat} (hk : k ≤ 2) (hbehind : behind.head? ≠ some '"')
    (fuel : Nat) (before : List Char) :
    Reads (longBasicRest (fuel + 1) before)
      (List.replicate k '"' ++ '"' :: '"' :: '"' :: behind)
      (· = String.ofList (before.reverse ++ List.replicate k '"')) behind := by
  unfold longBasicRest
  refine (Reads.rest _).andThen ?_
  rw [closing_replicate _ hk hbehind]
  have hskip := Reads.skip (k + 3) (List.replicate k '"' ++ '"' :: '"' :: '"' :: behind)
  rw [drop_closing] at hskip
  refine hskip.andThen ?_
  rw [reverse_replicate_append]
  exact .returns _ behind

theorem reads_longBasicRest_escape (hescape : IsEscape shown c)
    (h : Reads (longBasicRest fuel (c :: before)) text P behind) :
    Reads (longBasicRest (fuel + 1) before) ('\\' :: (shown ++ text)) P behind := by
  have hclosing := closing_eq_none (Nat.zero_le 2) (by decide : '\\' ≠ '"') (shown ++ text)
  unfold longBasicRest
  refine (Reads.rest _).andThen ?_
  simp only [List.replicate_zero, List.nil_append] at hclosing
  simp only [hclosing]
  refine (Reads.skip_cons _ _).andThen ?_
  rw [hescape.isLineEnd, if_neg Bool.false_ne_true]
  exact (hescape.reads text).andThen h

theorem reads_longBasicRest_char (hclosing : closing '"' (c :: text) = none)
    (hchar : isCommentChar c = true ∨ c = '\n') (hbackslash : c ≠ '\\')
    (h : Reads (longBasicRest fuel (c :: before)) text P behind) :
    Reads (longBasicRest (fuel + 1) before) (c :: text) P behind := by
  unfold longBasicRest
  refine (Reads.rest _).andThen ?_
  simp only [hclosing]
  split
  · rename_i hcons
    exact absurd (List.cons.inj hcons).1 hbackslash
  · rename_i hreturn
    cases hreturn
    exact absurd hchar (by decide)
  · rename_i hcons
    cases hcons
    rw [if_pos (by simpa using hchar)]
    exact (Reads.skip_cons c text).andThen h
  · rename_i hnil
    cases hnil

theorem reads_longBasicRest (h : cs.length < fuel) (hbehind : behind.head? ≠ some '"')
    (before : List Char) :
    Reads (longBasicRest fuel before) (Text.escape true run cs ++ '"' :: '"' :: '"' :: behind)
      (· = String.ofList (before.reverse ++ cs)) behind := by
  induction cs generalizing fuel before run with
  | nil =>
    obtain ⟨fuel, rfl⟩ := Nat.exists_eq_add_of_lt h
    exact reads_longBasicRest_end (Nat.zero_le 2) hbehind _ before
  | cons c cs ih =>
    obtain ⟨fuel, rfl⟩ := Nat.exists_eq_add_of_lt h
    have hshort : ∀ k, List.replicate k '"' <+: Text.escape true run (c :: cs) → k ≤ 2 := by
      intro k hk
      rcases Nat.eq_zero_or_pos k with rfl | hpos
      · exact Nat.zero_le 2
      · have := add_le_of_prefix_escape hpos hk
        omega
    rcases run_cases '"' (Text.escape true run (c :: cs)) with ⟨k, hmarks⟩ | ⟨k, d, tail, hd, htext⟩
    · rw [hmarks, eq_of_escape_eq_replicate hmarks]
      exact reads_longBasicRest_end (hshort k (hmarks ▸ List.prefix_rfl)) hbehind _ before
    · have hclosing := closing_eq_none (hshort k ⟨d :: tail, htext.symm⟩) hd
        (tail ++ '"' :: '"' :: '"' :: behind)
      rw [← List.cons_append, ← List.append_assoc, ← htext] at hclosing
      rw [List.append_cons before.reverse c cs, ← List.reverse_cons]
      have hshorter : cs.length < (c :: cs).length + fuel := by
        rw [List.length_cons]
        omega
      rcases escape_cons true run c cs with
        ⟨shown, hc, hescape⟩ | ⟨hquote, -, -, hc⟩ | ⟨hchar, -, hbackslash, hc⟩
      · rw [hc, List.cons_append, List.append_assoc]
        exact reads_longBasicRest_escape hescape (ih hshorter _)
      · subst hquote
        rw [hc, List.cons_append] at hclosing ⊢
        exact reads_longBasicRest_char hclosing (.inl (by decide)) (by decide) (ih hshorter _)
      · rw [hc, List.cons_append] at hclosing ⊢
        exact reads_longBasicRest_char hclosing (by simpa using hchar) hbackslash (ih hshorter _)

/-! ### The four forms -/

theorem length_le_length_escape (long : Bool) (run : Nat) (cs : List Char) :
    cs.length ≤ (Text.escape long run cs).length := by
  induction cs generalizing run with
  | nil => exact Nat.zero_le _
  | cons c cs ih =>
    rcases escape_cons long run c cs with ⟨shown, hc, -⟩ | ⟨-, -, -, hc⟩ | ⟨-, -, -, hc⟩
    · have := ih 0
      simp only [hc, List.length_cons, List.length_append]
      omega
    · have := ih (run + 1)
      simp only [hc, List.length_cons]
      omega
    · have := ih 0
      simp only [hc, List.length_cons]
      omega

/-- Whether a text of several lines comes next, whose first line end does not belong to it. -/
theorem reads_start (lines : Bool) (text : List Char)
    (h : lines = false → text.head? ≠ some '\n' ∧ text.head? ≠ some '\r') :
    Reads (Functor.discard newline) ((if lines then ['\n'] else []) ++ text) (· = ()) text := by
  cases lines with
  | true => exact (reads_newline text).discard
  | false => exact (reads_newline_none (h rfl).1 (h rfl).2).discard

theorem isCommentChar_or_newline (h : Text.isControl c = false) :
    isCommentChar c = true ∨ c = '\n' := by
  by_cases htab : c = '\t'
  · exact .inl (by rw [htab]; rfl)
  by_cases hline : c = '\n'
  · exact .inr hline
  · refine .inl (isCommentChar_of_not ?_)
    simpa [Text.isControl, htab, hline] using h

section Forms
variable (hquote : behind.head? ≠ some '"') (hapostrophe : behind.head? ≠ some '\'')

include hquote in
theorem reads_quoted_basic (cs : List Char) :
    Reads quoted ('"' :: (Text.escape false 0 cs ++ '"' :: behind)) (· = String.ofList cs)
      behind := by
  have hshort : "\"\"\"".toList.isPrefixOf ('"' :: (Text.escape false 0 cs ++ '"' :: behind)) =
      false := by
    cases cs with
    | nil =>
      cases behind with
      | nil => rfl
      | cons d behind =>
        have hd : ('"' == d) = false := beq_eq_false_iff_ne.2 fun h => hquote (h ▸ rfl)
        simp [Text.escape, List.isPrefixOf, hd]
    | cons c cs =>
      rcases escape_cons false 0 c cs with ⟨shown, hc, -⟩ | ⟨-, hlong, -⟩ | ⟨-, hquote, -, hc⟩
      · simp [hc, List.isPrefixOf]
      · cases hlong
      · simp [hc, List.isPrefixOf, Ne.symm hquote]
  have hfuel : cs.length < ('"' :: (Text.escape false 0 cs ++ '"' :: behind)).length + 1 := by
    have := length_le_length_escape false 0 cs
    simp only [List.length_cons, List.length_append]
    omega
  unfold quoted
  refine (Reads.rest _).andThen ?_
  refine (Reads.accept_of_isPrefixOf hshort).andThen ?_
  refine (Reads.accept_none (c := '\'') rfl (by simp)).andThen ?_
  exact (Reads.accept "\"" _).andThen (reads_basicRest hfuel [] behind)

include hapostrophe in
theorem reads_quoted_plain (hchars : ∀ c ∈ cs, isCommentChar c = true) (hmark : '\'' ∉ cs) :
    Reads quoted ('\'' :: (cs ++ '\'' :: behind)) (· = String.ofList cs) behind := by
  have hshort : "'''".toList.isPrefixOf ('\'' :: (cs ++ '\'' :: behind)) = false := by
    cases cs with
    | nil =>
      cases behind with
      | nil => rfl
      | cons d behind =>
        have hd : ('\'' == d) = false := beq_eq_false_iff_ne.2 fun h => hapostrophe (h ▸ rfl)
        simp [List.isPrefixOf, hd]
    | cons c cs =>
      have hc : ('\'' == c) = false :=
        beq_eq_false_iff_ne.2 fun h => hmark (h ▸ List.mem_cons_self)
      simp [List.isPrefixOf, hc]
  unfold quoted
  refine (Reads.rest _).andThen ?_
  refine (Reads.accept_none (c := '"') rfl (by simp)).andThen ?_
  refine (Reads.accept_of_isPrefixOf hshort).andThen ?_
  refine (Reads.accept_none (c := '"') rfl (by simp)).andThen ?_
  refine (Reads.skip_cons _ _).andThen ?_
  refine (Reads.takeWhile ?_ (by simp)).andThen ?_
  · intro c hc
    have hne : c ≠ '\'' := fun h => hmark (h ▸ hc)
    simp [hchars c hc, hne]
  · exact (Reads.accept "'" behind).andThen (.returns _ behind)

include hquote in
theorem reads_quoted_longBasic (cs : List Char) :
    Reads quoted
      (['"', '"', '"'] ++ ((if cs.contains '\n' then ['\n'] else []) ++
        (Text.escape true 0 cs ++ '"' :: '"' :: '"' :: behind)))
      (· = String.ofList cs) behind := by
  have hstart : cs.contains '\n' = false →
      (Text.escape true 0 cs ++ '"' :: '"' :: '"' :: behind).head? ≠ some '\n' ∧
        (Text.escape true 0 cs ++ '"' :: '"' :: '"' :: behind).head? ≠ some '\r' := by
    intro hline
    cases cs with
    | nil => simp [Text.escape]
    | cons c cs =>
      have hc : c ≠ '\n' := by
        rintro rfl
        simp at hline
      rcases escape_cons true 0 c cs with
        ⟨shown, htext, -⟩ | ⟨-, -, -, htext⟩ | ⟨hchar, -, -, htext⟩
      · simp [htext]
      · simp [htext]
      · have hreturn : c ≠ '\r' := by
          rintro rfl
          simp [isCommentChar] at hchar
        simp [htext, hc, hreturn]
  have hfuel : cs.length < (['"', '"', '"'] ++ ((if cs.contains '\n' then ['\n'] else []) ++
      (Text.escape true 0 cs ++ '"' :: '"' :: '"' :: behind))).length + 1 := by
    have := length_le_length_escape true 0 cs
    simp only [List.length_cons, List.length_append]
    omega
  unfold quoted
  refine (Reads.rest _).andThen ?_
  refine (Reads.accept "\"\"\"" _).andThen ?_
  exact (reads_start _ _ hstart).andThen (reads_longBasicRest hfuel hquote [])

include hapostrophe in
theorem reads_quoted_longPlain (hchars : ∀ c ∈ cs, isCommentChar c = true ∨ c = '\n')
    (hruns : ∀ k, List.replicate k '\'' <:+: cs → k ≤ 2) :
    Reads quoted
      (['\'', '\'', '\''] ++ ((if cs.contains '\n' then ['\n'] else []) ++
        (cs ++ '\'' :: '\'' :: '\'' :: behind)))
      (· = String.ofList cs) behind := by
  have hstart : cs.contains '\n' = false →
      (cs ++ '\'' :: '\'' :: '\'' :: behind).head? ≠ some '\n' ∧
        (cs ++ '\'' :: '\'' :: '\'' :: behind).head? ≠ some '\r' := by
    intro hline
    cases cs with
    | nil => simp
    | cons c cs =>
      have hc : c ≠ '\n' := by
        rintro rfl
        simp at hline
      have hreturn : c ≠ '\r' := by
        rintro rfl
        exact absurd (hchars _ List.mem_cons_self) (by decide)
      simp [hc, hreturn]
  have hfuel : cs.length < (['\'', '\'', '\''] ++ ((if cs.contains '\n' then ['\n'] else []) ++
      (cs ++ '\'' :: '\'' :: '\'' :: behind))).length + 1 := by
    simp only [List.length_cons, List.length_append]
    omega
  unfold quoted
  refine (Reads.rest _).andThen ?_
  refine (Reads.accept_none (c := '"') rfl (by simp)).andThen ?_
  refine (Reads.accept "'''" _).andThen ?_
  exact (reads_start _ _ hstart).andThen (reads_longPlainRest hfuel hchars hruns hapostrophe [])

end Forms

/-! ### Every text -/

theorem form_eq_plain {t : Text.Traits} (h : t.form = .plain) :
    t.control = false ∧ t.apostrophes = 0 ∧ t.newline = false := by
  unfold Text.Traits.form at h
  split_ifs at h
  all_goals simp_all

theorem form_eq_longPlain {t : Text.Traits} (h : t.form = .longPlain) :
    t.control = false ∧ t.apostrophes ≤ 2 := by
  unfold Text.Traits.form at h
  split_ifs at h
  all_goals simp_all

/-- Whatever form a text is written in, it is read back. -/
theorem reads_quoted_write (t : String) (hquote : behind.head? ≠ some '"')
    (hapostrophe : behind.head? ≠ some '\'') :
    Reads quoted ((Text.write t).toList ++ behind) (· = t) behind := by
  have hcontrol : (Text.traits t.toList).control = false →
      ∀ c ∈ t.toList, isCommentChar c = true ∨ c = '\n' := by
    intro hcontrol c hc
    exact isCommentChar_or_newline (by simpa using List.any_eq_false.1 hcontrol c hc)
  have hruns : ∀ k, List.replicate k '\'' <:+: t.toList →
      k ≤ (Text.traits t.toList).apostrophes :=
    fun k hk => le_longestRun_of_infix 0 0 hk
  unfold Text.write
  simp only [String.toList_ofList]
  cases hform : (Text.traits t.toList).form with
  | basic =>
    have hread := reads_quoted_basic hquote t.toList
    rw [String.ofList_toList] at hread
    simpa using hread
  | plain =>
    obtain ⟨hnone, hmarks, hline⟩ := form_eq_plain hform
    have hmark : '\'' ∉ t.toList := by
      intro hmem
      have := hruns 1 ((List.singleton_infix_iff _ _).2 hmem)
      omega
    have hnewline : '\n' ∉ t.toList := by simpa [Text.traits] using hline
    have hread := reads_quoted_plain hapostrophe
      (fun c hc => (hcontrol hnone c hc).resolve_right fun h => hnewline (h ▸ hc)) hmark
    rw [String.ofList_toList] at hread
    simpa using hread
  | longBasic =>
    have hread := reads_quoted_longBasic hquote t.toList
    rw [String.ofList_toList] at hread
    simpa [Text.traits] using hread
  | longPlain =>
    obtain ⟨hnone, hmarks⟩ := form_eq_longPlain hform
    have hread := reads_quoted_longPlain hapostrophe (hcontrol hnone)
      fun k hk => (hruns k hk).trans hmarks
    rw [String.ofList_toList] at hread
    simpa [Text.traits] using hread

end CallAtlas.Toml
