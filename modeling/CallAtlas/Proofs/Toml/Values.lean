import CallAtlas.Proofs.Lists
import CallAtlas.Proofs.Toml.Texts
import Mathlib.Data.Nat.Digits.Defs
/-!
# Values that are read back

Written texts, lists of texts, truth values and natural numbers of 63 bits are read back as values
where a line ends behind them, or in a list. A value comes with its span, about which nothing is
said.
-/

namespace CallAtlas.Toml

open Scan

variable {c : Char} {ds text behind : List Char} {P : Value → Prop} {inner : MayRead}

/-- What ends a value: a line end, or the punctuation of a list. -/
def IsEnd (c : Char) : Prop := c = '\n' ∨ c = ',' ∨ c = ']'

/-- Where values may be nested at least so deep, the text is read as a value with the property. -/
def ReadsValue (depth : Nat) (text : List Char) (P : Value → Prop) : Prop :=
  ∀ nesting ≥ depth, ∀ c behind, IsEnd c →
    Reads (valueWithin nesting) (text ++ c :: behind) (fun r => ∃ span v, r = some (span, v) ∧ P v)
      (c :: behind)

theorem readsValue_of_bareValue
    (h : ∀ inner c behind, IsEnd c →
      Reads (bareValue inner) (text ++ c :: behind) (fun r => ∃ v, r = some v ∧ P v)
        (c :: behind)) :
    ReadsValue 1 text P := by
  intro nesting hnesting c behind hc
  obtain ⟨n, rfl⟩ := Nat.exists_eq_add_of_lt hnesting
  unfold valueWithin
  refine (Reads.offset _).bind fun start _ => ?_
  refine (h _ c behind hc).bind fun r hr => ?_
  obtain ⟨v, rfl, hv⟩ := hr
  exact (Reads.offset _).bind fun stop _ => .pure ⟨_, v, rfl, hv⟩ _

/-! ### Texts and truth values -/

theorem reads_bareValue_quoted {t : String} (hhead : text.head? = some '"' ∨ text.head? = some '\'')
    (h : Reads quoted text (· = t) behind) :
    Reads (bareValue inner) text (· = some (.string t)) behind := by
  unfold bareValue
  refine (Reads.peek text).andThen ?_
  rcases hhead with hhead | hhead
  all_goals
    rw [hhead]
    exact h.andThen (.returns _ behind)

theorem head?_write (t : String) (behind : List Char) :
    ((Text.write t).toList ++ behind).head? = some '"' ∨
      ((Text.write t).toList ++ behind).head? = some '\'' := by
  unfold Text.write
  rw [String.toList_ofList]
  cases (Text.traits t.toList).form with
  | basic => exact .inl rfl
  | plain => exact .inr rfl
  | longBasic => exact .inl rfl
  | longPlain => exact .inr rfl

theorem readsValue_write (t : String) : ReadsValue 1 (Text.write t).toList (· = .string t) := by
  refine readsValue_of_bareValue fun inner c behind hc => ?_
  have hquoted : Reads quoted ((Text.write t).toList ++ c :: behind) (· = t) (c :: behind) := by
    apply reads_quoted_write
    all_goals rcases hc with rfl | rfl | rfl <;> simp
  exact (reads_bareValue_quoted (head?_write t _) hquoted).mono fun r hr => ⟨_, hr, rfl⟩

theorem readsValue_true : ReadsValue 1 "true".toList (· = .boolean true) := by
  refine readsValue_of_bareValue fun inner c behind hc => ?_
  unfold bareValue
  refine (Reads.peek _).andThen ?_
  exact (Reads.accept "true" _).andThen (.pure ⟨_, rfl, rfl⟩ _)

theorem readsValue_false : ReadsValue 1 "false".toList (· = .boolean false) := by
  refine readsValue_of_bareValue fun inner c behind hc => ?_
  unfold bareValue
  refine (Reads.peek _).andThen ?_
  exact (Reads.accept "false" _).andThen (.pure ⟨_, rfl, rfl⟩ _)

/-! ### Natural numbers -/

theorem not_isDigit_of_isEnd (hc : IsEnd c) : c.isDigit = false := by
  rcases hc with rfl | rfl | rfl <;> rfl

/-- A prefix of digits is no longer than the digits there are. -/
theorem le_length_of_fixedDigits (hc : IsEnd c) {k : Nat}
    (h : (fixedDigits k (ds ++ c :: behind)).isSome = true) : k ≤ ds.length := by
  by_contra hlonger
  have hmem : c ∈ (ds ++ c :: behind).take k := by
    obtain ⟨j, rfl⟩ := Nat.exists_eq_add_of_lt (Nat.lt_of_not_le hlonger)
    rw [Nat.add_assoc, List.take_length_add_append]
    simp
  have hdigits : ((ds ++ c :: behind).take k).all Char.isDigit = true := by
    unfold fixedDigits at h
    dsimp only at h
    split at h
    · rename_i hboth
      exact (Bool.and_eq_true_iff.1 hboth).2
    · cases h
  have hdigit := List.all_eq_true.1 hdigits c hmem
  rw [not_isDigit_of_isEnd hc] at hdigit
  cases hdigit

section Digits
variable (hds : ∀ d ∈ ds, d.isDigit = true) (hc : IsEnd c)
include hds hc

/-- No part of a date is followed by its separator. -/
theorem not_separated {k : Nat} {mark : Char} (hmark : mark = '-' ∨ mark = ':') :
    ((fixedDigits k (ds ++ c :: behind)).isSome && (ds ++ c :: behind)[k]? == some mark) =
      false := by
  rw [Bool.and_eq_false_imp]
  intro hfixed
  rcases Nat.lt_or_eq_of_le (le_length_of_fixedDigits hc hfixed) with hk | rfl
  · rw [List.getElem?_append_left hk, List.getElem?_eq_getElem hk]
    have hd := hds _ (List.getElem_mem hk)
    rw [beq_eq_false_iff_ne, Ne, Option.some.injEq]
    intro h
    rw [h] at hd
    rcases hmark with rfl | rfl <;> exact absurd hd (by decide)
  · rw [List.getElem?_append_right (Nat.le_refl _), Nat.sub_self]
    rcases hc with rfl | rfl | rfl <;> rcases hmark with rfl | rfl <;> rfl

theorem reads_datetime_none :
    Reads datetime (ds ++ c :: behind) (· = false) (ds ++ c :: behind) := by
  unfold datetime
  refine (Reads.rest _).andThen ?_
  rw [not_separated hds hc (.inl rfl), not_separated hds hc (.inr rfl)]
  exact .returns false _

theorem reads_digitsRest {fuel : Nat} (h : ds.length ≤ fuel) (before : List Char) :
    Reads (digitsRest Char.isDigit fuel before) (ds ++ c :: behind) (· = before.reverse ++ ds)
      (c :: behind) := by
  induction ds generalizing fuel before with
  | nil =>
    rw [List.append_nil]
    cases fuel with
    | zero => exact .returns _ _
    | succ fuel =>
      unfold digitsRest
      refine (Reads.rest _).andThen ?_
      rcases hc with rfl | rfl | rfl <;> exact .returns _ _
  | cons d ds ih =>
    cases fuel with
    | zero => exact absurd h (Nat.not_succ_le_zero _)
    | succ fuel =>
      have hd : d.isDigit = true := hds d List.mem_cons_self
      have hrest := ih (fun e he => hds e (List.mem_cons_of_mem d he)) (Nat.le_of_succ_le_succ h)
        (d :: before)
      rw [List.reverse_cons, List.append_assoc, List.singleton_append] at hrest
      unfold digitsRest
      refine (Reads.rest _).andThen ?_
      split
      · rename_i hunderscore
        cases hunderscore
        exact absurd hd (by decide)
      · rename_i hcons
        cases hcons
        rw [if_pos hd]
        exact (Reads.skip_cons d _).andThen hrest
      · rename_i hnil
        cases hnil

theorem reads_digits (hne : ds ≠ []) :
    Reads (digits Char.isDigit) (ds ++ c :: behind) (· = some ds) (c :: behind) := by
  obtain ⟨d, others, rfl⟩ := List.exists_cons_of_ne_nil hne
  have hlength : others.length ≤ (others ++ c :: behind).length := by simp
  have hothers : ∀ e ∈ others, e.isDigit = true := fun e he => hds e (List.mem_cons_of_mem d he)
  unfold digits
  refine (Reads.rest _).andThen ?_
  dsimp only [List.cons_append]
  rw [if_pos (hds d List.mem_cons_self)]
  refine (Reads.skip_cons d _).andThen ?_
  exact (reads_digitsRest hothers hc hlength [d]).andThen (.returns _ _)

/-- No prefix of another base stands before digits. -/
theorem ne_prefixed {letter : Char} (hletter : letter = 'x' ∨ letter = 'o' ∨ letter = 'b')
    (tail : List Char) : ds ++ c :: behind ≠ '0' :: letter :: tail := by
  intro h
  have hnotEnd : ¬IsEnd letter := by rcases hletter with rfl | rfl | rfl <;> unfold IsEnd <;> decide
  match ds with
  | [] =>
    rw [List.nil_append] at h
    cases h
    rcases hc with h | h | h <;> cases h
  | [d] =>
    rw [List.singleton_append] at h
    cases h
    exact hnotEnd hc
  | d :: e :: others =>
    cases h
    have he := hds _ (List.mem_cons_of_mem _ List.mem_cons_self)
    rcases hletter with rfl | rfl | rfl <;> exact absurd he (by decide)

end Digits

theorem reads_fitting (start : Nat) {n : Nat} (h : n ≤ 0x7FFFFFFFFFFFFFFF) (text : List Char) :
    Reads (fitting start n) text (· = .integer n) text := by
  unfold fitting
  rw [if_neg (by simp; omega)]
  exact .returns _ text

/-- An integer has neither a fraction nor an exponent. -/
theorem reads_numberRest (hc : IsEnd c) (start : Nat) (h : ofDigits 10 ds ≤ 0x7FFFFFFFFFFFFFFF) :
    Reads (numberRest start false ds) (c :: behind) (· = .integer (ofDigits 10 ds))
      (c :: behind) := by
  have hother : ∀ d, d = '.' ∨ d = 'e' ∨ d = 'E' → (c :: behind).head? ≠ some d := by
    rintro d hd h
    cases h
    rcases hc with rfl | rfl | rfl <;> simp at hd
  have hexponent : Reads (accept "e" <||> accept "E") (c :: behind) (· = false) (c :: behind) :=
    (Reads.accept_none rfl (hother 'e' (.inr (.inl rfl)))).andThen
      (.accept_none rfl (hother 'E' (.inr (.inr rfl))))
  unfold numberRest
  refine (Reads.accept_none rfl (hother '.' (.inl rfl))).andThen ?_
  refine (Reads.returns none _).andThen ?_
  refine hexponent.andThen ?_
  refine (Reads.returns none _).andThen ?_
  exact reads_fitting start h _

theorem head?_toDigits {n : Nat} (hn : 0 < n) : (Nat.toDigits 10 n).head? ≠ some '0' := by
  induction n using Nat.strongRecOn with
  | ind n ih =>
    by_cases hsmall : n < 10
    · have hchar : ∀ n < 10, 0 < n → n.digitChar ≠ '0' := by decide
      rw [Nat.toDigits_of_lt_base hsmall, List.head?_cons]
      exact fun h => hchar n hsmall hn (Option.some.inj h)
    · have hdiv : 0 < n / 10 := by omega
      obtain ⟨d, others, hdigits⟩ := List.exists_cons_of_ne_nil
        (Nat.toDigits_ne_nil (n := n / 10) (b := 10))
      have hd := ih (n / 10) (by omega) hdiv
      rw [Nat.toDigits_of_base_le (by decide) (Nat.le_of_not_lt hsmall), hdigits]
      rwa [hdigits] at hd

theorem ofDigits_toDigits (n : Nat) : ofDigits 10 (Nat.toDigits 10 n) = n := by
  have hvalue : ∀ (ds : List Char) (k : Nat), (∀ d ∈ ds, d.isDigit = true) →
      ds.foldl (fun n c => 10 * n + (Text.hexValue c).getD 0) k = Nat.ofDigitChars 10 ds k := by
    intro ds
    induction ds with
    | nil => exact fun _ _ => rfl
    | cons d ds ih =>
      intro k hds
      have hd : (Text.hexValue d).getD 0 = d.toNat - '0'.toNat := by
        rw [Text.hexValue, if_pos (hds d List.mem_cons_self), Option.getD_some]
      rw [List.foldl_cons, hd, ih _ fun e he => hds e (List.mem_cons_of_mem d he)]
      rfl
  rw [ofDigits, hvalue _ 0 fun d hd => Nat.isDigit_of_mem_toDigits (by decide) (by decide) hd,
    Nat.ofDigitChars_ten_toDigits]

/-- The digits of a number are read as one: a zero does not stand before others. -/
theorem reads_decimalDigits (hc : IsEnd c) (n : Nat) :
    Reads decimalDigits (Nat.toDigits 10 n ++ c :: behind) (· = some (Nat.toDigits 10 n))
      (c :: behind) := by
  unfold decimalDigits
  refine (Reads.peek _).andThen ?_
  rcases Nat.eq_zero_or_pos n with rfl | hn
  · exact (Reads.skip_cons '0' _).andThen (.returns _ _)
  · have hne := Nat.toDigits_ne_nil (n := n) (b := 10)
    have hhead : (Nat.toDigits 10 n ++ c :: behind).head? = (Nat.toDigits 10 n).head? := by
      rw [List.head?_append_of_ne_nil _ hne]
    split
    · rename_i hzero
      exact absurd (hhead ▸ hzero) (head?_toDigits hn)
    · exact reads_digits
        (fun d hd => Nat.isDigit_of_mem_toDigits (by decide) (by decide) hd) hc hne

theorem reads_number (hc : IsEnd c) {n : Nat} (h : n ≤ 0x7FFFFFFFFFFFFFFF) :
    Reads number (Nat.toDigits 10 n ++ c :: behind) (· = some (.integer n)) (c :: behind) := by
  have hdigits : ∀ d ∈ Nat.toDigits 10 n, d.isDigit = true :=
    fun d hd => Nat.isDigit_of_mem_toDigits (by decide) (by decide) hd
  have hsign : ∀ d, d = '-' ∨ d = '+' → (Nat.toDigits 10 n ++ c :: behind).head? ≠ some d := by
    intro d hd hhead
    rw [List.head?_append_of_ne_nil _ Nat.toDigits_ne_nil] at hhead
    have := hdigits d (List.mem_of_head? hhead)
    rcases hd with rfl | rfl <;> exact absurd this (by decide)
  have hplain : Reads sign (Nat.toDigits 10 n ++ c :: behind) (· = false)
      (Nat.toDigits 10 n ++ c :: behind) := by
    unfold sign
    refine (Reads.accept_none rfl (hsign '-' (.inl rfl))).andThen ?_
    exact (Reads.accept_none rfl (hsign '+' (.inr rfl))).discard.andThen (.returns _ _)
  unfold number
  refine (Reads.get _).bind fun before _ => ?_
  refine (reads_datetime_none hdigits hc).andThen ?_
  refine (Reads.rest _).andThen ?_
  dsimp only
  split
  · rename_i tail htext
    exact absurd htext (ne_prefixed hdigits hc (.inl rfl) tail)
  · rename_i tail htext
    exact absurd htext (ne_prefixed hdigits hc (.inr (.inl rfl)) tail)
  · rename_i tail htext
    exact absurd htext (ne_prefixed hdigits hc (.inr (.inr rfl)) tail)
  · refine hplain.andThen ?_
    refine (reads_decimalDigits hc n).andThen ?_
    have hsmall : ofDigits 10 (Nat.toDigits 10 n) ≤ 0x7FFFFFFFFFFFFFFF := by
      rwa [ofDigits_toDigits]
    refine (reads_numberRest hc before.offset hsmall).map some fun v hv => ?_
    rw [hv, ofDigits_toDigits]

theorem readsValue_toString {n : Nat} (h : n ≤ 0x7FFFFFFFFFFFFFFF) :
    ReadsValue 1 (toString n).toList (· = .integer n) := by
  refine readsValue_of_bareValue fun inner c behind hc => ?_
  rw [Nat.toString_eq_ofList_toDigits, String.toList_ofList]
  obtain ⟨d, others, hdigits⟩ := List.exists_cons_of_ne_nil (Nat.toDigits_ne_nil (n := n) (b := 10))
  have hd : d.isDigit = true :=
    Nat.isDigit_of_mem_toDigits (by decide) (by decide) (hdigits ▸ List.mem_cons_self)
  have hne : ∀ e, e.isDigit = false → (d == e) = false := by
    intro e he
    rw [beq_eq_false_iff_ne]
    rintro rfl
    rw [hd] at he
    cases he
  have hread : Reads number _ _ (c :: behind) := reads_number hc h
  rw [hdigits] at hread ⊢
  unfold bareValue
  refine (Reads.peek _).andThen ?_
  simp only [List.cons_append, List.head?_cons, hne '"' rfl, hne '\'' rfl, hne '[' rfl,
    hne '\x7b' rfl, hd, Bool.or_false, Bool.or_true, Bool.false_eq_true, if_false, if_true]
  exact hread.mono fun r hr => ⟨_, hr, rfl⟩

/-! ### Lists of texts -/

theorem isSolid_write (t : String) :
    ∃ c others, (Text.write t).toList = c :: others ∧ isSolid c = true := by
  have hhead := head?_write t []
  rw [List.append_nil] at hhead
  cases hwrite : (Text.write t).toList with
  | nil => simp [hwrite] at hhead
  | cons c others =>
    rw [hwrite, List.head?_cons, Option.some.injEq, Option.some.injEq] at hhead
    refine ⟨c, others, rfl, ?_⟩
    rcases hhead with rfl | rfl <;> rfl

section Lists
variable (n : Nat)

theorem reads_value_write (t : String) (hc : IsEnd c) (behind : List Char) :
    Reads (valueWithin (n + 1)) ((Text.write t).toList ++ c :: behind)
      (fun r => ∃ span, r = some (span, .string t)) (c :: behind) := by
  refine (readsValue_write t (n + 1) (Nat.le_add_left 1 n) c behind hc).mono ?_
  rintro r ⟨span, v, rfl, rfl⟩
  exact ⟨span, rfl⟩

theorem reads_value_none (behind : List Char) :
    Reads (valueWithin (n + 1)) (']' :: behind) (· = none) (']' :: behind) := by
  unfold valueWithin
  refine (Reads.offset _).bind fun start _ => ?_
  exact Reads.andThen ((Reads.peek _).andThen (.returns none _)) (.returns none _)

theorem reads_items_end (fuel : Nat) (before : List (Span × Value)) (behind : List Char)
    (hgap : Reads gap text (· = ()) (']' :: behind)) :
    Reads (items (valueWithin (n + 1)) (fuel + 1) before) text (· = before.reverse)
      (']' :: behind) := by
  unfold items
  exact hgap.andThen ((reads_value_none n behind).andThen (.returns _ _))

/-- A line of a list of several texts. -/
def itemLine (t : String) : List Char := List.replicate 4 ' ' ++ (Text.write t).toList ++ [',', '\n']

theorem toList_itemLines (ts : List String) :
    (String.join (ts.map fun t => "    " ++ Text.write t ++ ",\n")).toList =
      ts.flatMap itemLine := by
  rw [String.toList_join, List.flatMap_map]
  exact List.flatMap_congr fun t _ => by simp [itemLine]

theorem reads_items_lines (ts : List String) {fuel : Nat} (h : ts.length < fuel)
    (before : List (Span × Value)) (behind : List Char) :
    Reads (items (valueWithin (n + 1)) fuel before)
      ('\n' :: (ts.flatMap itemLine ++ ']' :: behind))
      (fun vs => vs.map (·.2) = before.reverse.map (·.2) ++ ts.map .string) (']' :: behind) := by
  induction ts generalizing fuel before with
  | nil =>
    obtain ⟨fuel, rfl⟩ := Nat.exists_eq_add_of_lt h
    refine (reads_items_end n _ before behind (reads_gap_line (by rfl) 0 behind)).mono ?_
    rintro vs rfl
    simp
  | cons t ts ih =>
    obtain ⟨fuel, rfl⟩ := Nat.exists_eq_add_of_lt h
    obtain ⟨c, others, hwrite, hsolid⟩ := isSolid_write t
    have htext : '\n' :: ((t :: ts).flatMap itemLine ++ ']' :: behind) =
        '\n' :: (List.replicate 4 ' ' ++ c :: (others ++ ',' :: '\n' ::
          (ts.flatMap itemLine ++ ']' :: behind))) := by
      simp [itemLine, hwrite]
    have hvalue := reads_value_write n t (.inr (.inl rfl))
      ('\n' :: (ts.flatMap itemLine ++ ']' :: behind))
    rw [hwrite] at hvalue
    rw [htext]
    unfold items
    refine (reads_gap_line hsolid 4 _).andThen ?_
    refine hvalue.bind fun r hr => ?_
    obtain ⟨span, rfl⟩ := hr
    refine (reads_gap_none (by rfl) _).andThen ?_
    refine (Reads.accept "," _).andThen ?_
    refine (ih (by rw [List.length_cons]; omega) _).mono fun vs hvs => ?_
    rw [hvs]
    simp

theorem reads_items_single (t : String) (fuel : Nat) (behind : List Char) :
    Reads (items (valueWithin (n + 1)) (fuel + 1) []) ((Text.write t).toList ++ ']' :: behind)
      (fun vs => vs.map (·.2) = [.string t]) (']' :: behind) := by
  obtain ⟨c, others, hwrite, hsolid⟩ := isSolid_write t
  have hvalue := reads_value_write n t (.inr (.inr rfl)) behind
  rw [hwrite] at hvalue ⊢
  unfold items
  refine (reads_gap_none hsolid _).andThen ?_
  refine hvalue.bind fun r hr => ?_
  obtain ⟨span, rfl⟩ := hr
  refine (reads_gap_none (by rfl) _).andThen ?_
  refine (Reads.accept_none (c := ',') rfl (by simp)).andThen ?_
  exact .pure (by rfl) _

/-- A written list without its first bracket. -/
theorem reads_items_writeList (ts : List String) (behind : List Char) :
    ∃ inside, (Text.writeList ts).toList ++ behind = '[' :: inside ∧
      Reads (items (valueWithin (n + 1)) (inside.length + 1) []) inside
        (fun vs => vs.map (·.2) = ts.map .string) (']' :: behind) := by
  match ts with
  | [] =>
    refine ⟨']' :: behind, rfl, ?_⟩
    refine (reads_items_end n _ [] behind (reads_gap_none (by rfl) behind)).mono ?_
    rintro vs rfl
    rfl
  | [t] =>
    refine ⟨(Text.write t).toList ++ ']' :: behind, by simp [Text.writeList], ?_⟩
    exact reads_items_single n t _ behind
  | t :: u :: ts =>
    refine ⟨'\n' :: ((t :: u :: ts).flatMap itemLine ++ ']' :: behind), ?_, ?_⟩
    · simp only [Text.writeList, String.toList_append, toList_itemLines]
      rw [List.append_assoc]
      rfl
    · have := length_le_length_flatMap (f := itemLine) (by simp [itemLine]) (t :: u :: ts)
      refine (reads_items_lines n _ ?_ [] behind).mono fun vs hvs => hvs
      simp only [List.length_cons, List.length_append] at this ⊢
      omega

end Lists

/-- The value is a list of texts. -/
def IsTexts (ts : List String) (v : Value) : Prop :=
  ∃ vs, v = .array vs ∧ vs.map (·.2) = ts.map .string

theorem readsValue_writeList (ts : List String) :
    ReadsValue 2 (Text.writeList ts).toList (IsTexts ts) := by
  intro nesting hnesting c behind hc
  obtain ⟨n, rfl⟩ := Nat.exists_eq_add_of_le' hnesting
  obtain ⟨inside, hinside, hitems⟩ := reads_items_writeList n ts (c :: behind)
  rw [hinside]
  unfold valueWithin
  refine (Reads.offset _).bind fun start _ => ?_
  have hbare : Reads (bareValue (valueWithin (n + 1))) ('[' :: inside)
      (fun r => ∃ v, r = some v ∧ IsTexts ts v) (c :: behind) := by
    unfold bareValue arrayRest
    refine (Reads.peek _).andThen ?_
    refine (Reads.skip_cons '[' inside).andThen ?_
    refine Reads.bind (P := IsTexts ts) ?_ fun v hv => .pure ⟨v, rfl, hv⟩ _
    refine (Reads.rest _).andThen ?_
    refine hitems.bind fun vs hvs => ?_
    refine (reads_gap_none (by rfl) _).andThen ?_
    exact (Reads.accept "]" _).andThen (.pure ⟨vs, rfl, hvs⟩ _)
  refine hbare.bind fun r hr => ?_
  obtain ⟨v, rfl, hv⟩ := hr
  exact (Reads.offset _).bind fun stop _ => .pure ⟨_, v, rfl, hv⟩ _

end CallAtlas.Toml
