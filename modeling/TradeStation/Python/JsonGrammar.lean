import TradeStation.Python.JsonDecoder

/-!
# The grammar of JSON texts

`Value t v` says that the whole of `t` is a text of the value `v`, by the rules of the JSON
standard and Python's additions to it. The decoder is the grammar's: `value_sound` says that what
it reads is a text of the value it returns, and `value_complete` that it reads every text of a
value, whatever comes behind it. Only behind a number does it matter what comes next, since a
number goes on as long as it can.

`rawDecode_prefix` is what an incremental reader rests on: an object text is no longer one when
its end is cut off, and what is left decodes to nothing.
-/

namespace TradeStation.Python.Json

/-- Only whitespace. -/
def Ws (w : List Char) : Prop := ∀ c ∈ w, isWs c = true

/-- A text of one character of a string. -/
inductive Character : List Char → ℕ → Prop
  | plain (c : Char) (hc : 0x20 ≤ c.toNat) (hq : c ≠ '"') (hb : c ≠ '\\') :
    Character [c] c.toNat
  | escape (e : Char) (n : ℕ) (he : e ≠ 'u') (h : escape e = some n) : Character ['\\', e] n
  | unicode (a b c d : Char) (n : ℕ) (h : hex4 a b c d = some n) :
    Character ['\\', 'u', a, b, c, d] n

/-- A text of the characters of a string. -/
inductive StringBody : List Char → PyStr → Prop
  | nil : StringBody [] []
  | cons {t u n ns} (h : Character t n) (hs : StringBody u ns) : StringBody (t ++ u) (n :: ns)

/-- The digits of an integer. -/
inductive Integer : List Char → Prop
  | zero : Integer ['0']
  | digits (c : Char) (ds : List Char) (h0 : c ≠ '0') (h : ∀ d ∈ c :: ds, isDigit d = true) :
    Integer (c :: ds)

/-- A fraction, or none, with its digits. -/
inductive Fraction : List Char → List Char → Prop
  | none : Fraction [] []
  | some (ds : List Char) (hne : ds ≠ []) (h : ∀ d ∈ ds, isDigit d = true) :
    Fraction ('.' :: ds) ds

/-- An exponent, or none, with its sign and digits. -/
inductive Exponent : List Char → Option (Option Char × List Char) → Prop
  | none : Exponent [] none
  | some (c : Char) (sgn : Option Char) (ds : List Char) (hc : c = 'e' ∨ c = 'E')
    (hs : ∀ s ∈ sgn, s = '+' ∨ s = '-') (hne : ds ≠ []) (h : ∀ d ∈ ds, isDigit d = true) :
    Exponent (c :: (sgn.toList ++ ds)) (some (sgn, ds))

/-- A number without its sign. -/
inductive Unsigned (neg : Bool) : List Char → Json → Prop
  | mk {i t f u e} (hi : Integer i) (hf : Fraction t f) (he : Exponent u e) :
    Unsigned neg (i ++ (t ++ u)) (numberValue neg i f e)

/-- Items between commas, with whitespace around each comma and behind the last item. -/
inductive Sequence {α : Type} (P : List Char → α → Prop) : List Char → List α → Prop
  | last {t w a} (h : P t a) (hw : Ws w) : Sequence P (t ++ w) [a]
  | cons {t w w' u a as} (h : P t a) (hw : Ws w) (hw' : Ws w') (hs : Sequence P u as) :
    Sequence P (t ++ (w ++ ',' :: (w' ++ u))) (a :: as)

/-- What stands between two brackets. -/
inductive Bracketed {α : Type} (P : List Char → α → Prop) : List Char → List α → Prop
  | empty {w} (hw : Ws w) : Bracketed P w []
  | items {w t as} (hw : Ws w) (hs : Sequence P t as) : Bracketed P (w ++ t) as

/-- A key and its value. -/
inductive Member (P : List Char → Json → Prop) : List Char → PyStr × Json → Prop
  | mk {k cs w w' t v} (hk : StringBody k cs) (hw : Ws w) (hw' : Ws w') (hv : P t v) :
    Member P ('"' :: (k ++ '"' :: (w ++ ':' :: (w' ++ t)))) (joinSurrogates cs, v)

/-- A text of a value. In the rules for an array and an object, `Q` is any set of texts of values
that has the items; it may be `Value` itself. -/
inductive Value : List Char → Json → Prop
  | word {w} (h : w ∈ words) : Value w.1 w.2
  | positive {t v} (h : Unsigned false t v) : Value t v
  | negative {t v} (h : Unsigned true t v) : Value ('-' :: t) v
  | string {t cs} (h : StringBody t cs) : Value ('"' :: (t ++ ['"'])) (.str (joinSurrogates cs))
  | array {Q : List Char → Json → Prop} {t vs} (hQ : ∀ t v, Q t v → Value t v)
    (h : Bracketed Q t vs) : Value ('[' :: (t ++ [']'])) (.arr vs)
  | object {Q : List Char → Json → Prop} {t ms} (hQ : ∀ t v, Q t v → Value t v)
    (h : Bracketed (Member Q) t ms) : Value ('{' :: (t ++ ['}'])) (.obj (dict ms))

/-- A text of an object. -/
def ObjectText (t : List Char) (d : Dict) : Prop := t.head? = some '{' ∧ Value t (.obj d)

/-! ## What the decoder reads is a text of what it returns -/

theorem skip_spec (s : List Char) : ∃ w, Ws w ∧ s = w ++ skip s :=
  ⟨s.takeWhile isWs, fun _ h => List.mem_takeWhile_imp h, (List.takeWhile_append_dropWhile).symm⟩

theorem character_sound {s r : List Char} {n : ℕ} (h : character s = some (n, r))
    (hq : s.head? ≠ some '"') : ∃ t, s = t ++ r ∧ Character t n := by
  cases s with
  | nil => simp [character] at h
  | cons c s =>
    simp only [character] at h
    split_ifs at h with hb hlow
    · subst hb
      cases s with
      | nil => simp at h
      | cons e s =>
        simp only at h
        split_ifs at h with hu
        · subst hu
          match s with
          | a :: b :: c :: d :: s =>
            obtain ⟨m, hm, he⟩ := Option.map_eq_some_iff.1 h
            cases he
            exact ⟨['\\', 'u', a, b, c, d], rfl, .unicode a b c d n hm⟩
          | [] | [_] | [_, _] | [_, _, _] => simp at h
        · obtain ⟨m, hm, he⟩ := Option.map_eq_some_iff.1 h
          cases he
          exact ⟨['\\', e], rfl, .escape e n hu hm⟩
    · cases h
      exact ⟨[c], rfl, .plain c (by omega) (by simpa using hq) hb⟩

theorem stringBody_sound {n : ℕ} {s r : List Char} {cs : PyStr}
    (h : stringBody n s = some (cs, r)) : ∃ t, s = t ++ '"' :: r ∧ StringBody t cs := by
  induction n generalizing s r cs with
  | zero => cases s <;> simp [stringBody] at h
  | succ n ih =>
    cases s with
    | nil => simp [stringBody] at h
    | cons c s =>
      simp only [stringBody] at h
      split_ifs at h with hc
      · cases h
        exact ⟨[], by simp [hc], .nil⟩
      · simp only [Option.bind_eq_bind, Option.bind_eq_some_iff, Option.pure_def,
          Option.some.injEq, Prod.mk.injEq, Prod.exists] at h
        obtain ⟨a, s', ha, as, r', has, rfl, rfl⟩ := h
        obtain ⟨t, ht, hct⟩ := character_sound ha (by simpa using hc)
        obtain ⟨u, rfl, hu⟩ := ih has
        exact ⟨t ++ u, by rw [ht, List.append_assoc], .cons hct hu⟩

theorem scanString_sound {s r : List Char} {cs : PyStr} (h : scanString s = some (cs, r)) :
    ∃ t as, s = t ++ '"' :: r ∧ StringBody t as ∧ cs = joinSurrogates as := by
  obtain ⟨⟨as, r'⟩, has, he⟩ := Option.map_eq_some_iff.1 h
  cases he
  obtain ⟨t, ht, hb⟩ := stringBody_sound has
  exact ⟨t, as, ht, hb, rfl⟩

theorem integer_sound {s i r : List Char} (h : integer s = some (i, r)) :
    s = i ++ r ∧ Integer i := by
  cases s with
  | nil => simp [integer] at h
  | cons c s =>
    simp only [integer] at h
    split_ifs at h with h0 hd
    · cases h
      exact ⟨rfl, h0 ▸ .zero⟩
    · cases h
      refine ⟨(List.takeWhile_append_dropWhile).symm, ?_⟩
      rw [List.takeWhile_cons_of_pos hd]
      refine .digits c _ h0 fun d hmem => ?_
      rcases List.mem_cons.1 hmem with rfl | hmem
      · exact hd
      · exact List.mem_takeWhile_imp hmem

theorem fraction_sound (s : List Char) :
    ∃ t, s = t ++ (fraction s).2 ∧ Fraction t (fraction s).1 := by
  cases s with
  | nil => exact ⟨[], rfl, .none⟩
  | cons c s =>
    simp only [fraction]
    split_ifs with h
    · refine ⟨'.' :: s.takeWhile isDigit, ?_, .some _ h.2 fun d hd => List.mem_takeWhile_imp hd⟩
      rw [h.1, List.cons_append, List.takeWhile_append_dropWhile]
    · exact ⟨[], rfl, .none⟩

theorem sign_spec (s : List Char) :
    s = (sign s).1.toList ++ (sign s).2 ∧ ∀ c ∈ (sign s).1, c = '+' ∨ c = '-' := by
  cases s with
  | nil => simp [sign]
  | cons c s =>
    simp only [sign]
    split_ifs with h <;> simp [h]

theorem exponent_sound (s : List Char) :
    ∃ t, s = t ++ (exponent s).2 ∧ Exponent t (exponent s).1 := by
  cases s with
  | nil => exact ⟨[], rfl, .none⟩
  | cons c s =>
    simp only [exponent]
    split_ifs with h
    · refine ⟨_, ?_, .some c _ _ h.1 (sign_spec s).2 h.2 fun d hd => List.mem_takeWhile_imp hd⟩
      rw [List.cons_append, List.append_assoc, List.takeWhile_append_dropWhile, ← (sign_spec s).1]
    · exact ⟨[], rfl, .none⟩

theorem unsigned_sound {neg : Bool} {s r : List Char} {v : Json}
    (h : unsigned neg s = some (v, r)) : ∃ t, s = t ++ r ∧ Unsigned neg t v := by
  simp only [unsigned, Option.bind_eq_bind, Option.bind_eq_some_iff, Option.pure_def,
    Option.some.injEq, Prod.mk.injEq, Prod.exists] at h
  obtain ⟨i, s', hs, rfl, rfl⟩ := h
  obtain ⟨rfl, hi⟩ := integer_sound hs
  obtain ⟨t, ht, hf⟩ := fraction_sound s'
  obtain ⟨u, hu, he⟩ := exponent_sound (fraction s').2
  refine ⟨i ++ (t ++ u), ?_, .mk hi hf he⟩
  rw [List.append_assoc, List.append_assoc, ← hu, ← ht]

theorem scalar_sound {s r : List Char} {v : Json} (h : scalar s = some (v, r)) :
    ∃ t, s = t ++ r ∧ Value t v := by
  simp only [scalar] at h
  split at h
  · next w hw =>
    cases h
    refine ⟨w.1, ?_, .word (List.mem_of_find?_eq_some hw)⟩
    have hprefix : w.1.isPrefixOf s = true := by simpa using List.find?_some hw
    obtain ⟨u, rfl⟩ := List.isPrefixOf_iff_prefix.1 hprefix
    rw [List.drop_left]
  · cases s with
    | nil => simp [number] at h
    | cons c s =>
      simp only [number] at h
      split_ifs at h with hc
      · obtain ⟨t, rfl, ht⟩ := unsigned_sound h
        exact ⟨'-' :: t, by simp [hc], .negative ht⟩
      · obtain ⟨t, ht, hu⟩ := unsigned_sound h
        exact ⟨t, ht, .positive hu⟩

section
variable {α : Type} {P : List Char → α → Prop} {item : List Char → Option (α × List Char)}
variable {close : Char}

theorem sequence_sound (hitem : ∀ s a r, item s = some (a, r) → ∃ t, s = t ++ r ∧ P t a)
    {n : ℕ} {s r : List Char} {as : List α} (h : sequence item close n s = some (as, r)) :
    ∃ t, s = t ++ close :: r ∧ Sequence P t as := by
  induction n generalizing s r as with
  | zero => simp [sequence] at h
  | succ n ih =>
    simp only [sequence, Option.bind_eq_bind, Option.bind_eq_some_iff, Prod.exists] at h
    obtain ⟨a, s', ha, h⟩ := h
    obtain ⟨t, rfl, ht⟩ := hitem _ _ _ ha
    obtain ⟨w, hw, hs'⟩ := skip_spec s'
    cases hskip : skip s' with
    | nil => simp [hskip] at h
    | cons c u =>
      rw [hskip] at h hs'
      simp only at h
      split_ifs at h with hc hcomma
      · cases h
        exact ⟨t ++ w, by rw [hs', hc, List.append_assoc], .last ht hw⟩
      · simp only [Option.bind_eq_some_iff, Option.pure_def, Option.some.injEq,
          Prod.mk.injEq, Prod.exists] at h
        obtain ⟨as', r', has, rfl, rfl⟩ := h
        obtain ⟨w', hw', hu⟩ := skip_spec u
        obtain ⟨t', ht', hseq⟩ := ih has
        refine ⟨t ++ (w ++ ',' :: (w' ++ t')), ?_, .cons ht hw hw' hseq⟩
        rw [hs', hcomma, hu, ht']
        simp

theorem bracketed_sound (hitem : ∀ s a r, item s = some (a, r) → ∃ t, s = t ++ r ∧ P t a)
    {n : ℕ} {s r : List Char} {as : List α} (h : bracketed item close n s = some (as, r)) :
    ∃ t, s = t ++ close :: r ∧ Bracketed P t as := by
  obtain ⟨w, hw, hs⟩ := skip_spec s
  simp only [bracketed] at h
  cases hskip : skip s with
  | nil => simp [hskip] at h
  | cons c u =>
    rw [hskip] at h hs
    simp only at h
    split_ifs at h with hc
    · cases h
      exact ⟨w, by rw [hs, hc], .empty hw⟩
    · obtain ⟨t, ht, hseq⟩ := sequence_sound hitem h
      exact ⟨w ++ t, by rw [hs, ht, List.append_assoc], .items hw hseq⟩

end

theorem member_sound {read : List Char → Option (Json × List Char)}
    {P : List Char → Json → Prop}
    (hread : ∀ s v r, read s = some (v, r) → ∃ t, s = t ++ r ∧ P t v)
    (s : List Char) (m : PyStr × Json) (r : List Char) (h : member read s = some (m, r)) :
    ∃ t, s = t ++ r ∧ Member P t m := by
  cases s with
  | nil => simp [member] at h
  | cons c s =>
    simp only [member] at h
    split_ifs at h with hc
    simp only [Option.bind_eq_bind, Option.bind_eq_some_iff, Prod.exists] at h
    obtain ⟨key, s', hkey, h⟩ := h
    obtain ⟨k, cs, rfl, hk, rfl⟩ := scanString_sound hkey
    obtain ⟨w, hw, hs'⟩ := skip_spec s'
    cases hskip : skip s' with
    | nil => simp [hskip] at h
    | cons d u =>
      rw [hskip] at h hs'
      simp only at h
      split_ifs at h with hd
      simp only [Option.bind_eq_some_iff, Option.pure_def, Option.some.injEq, Prod.mk.injEq,
        Prod.exists] at h
      obtain ⟨v, r', hv, rfl, rfl⟩ := h
      obtain ⟨w', hw', hu⟩ := skip_spec u
      obtain ⟨t, ht, hP⟩ := hread _ _ _ hv
      refine ⟨_, ?_, .mk hk hw hw' hP⟩
      rw [hc, hs', hd, hu, ht]
      simp

/-- **What the decoder reads is a text of what it returns.** -/
theorem value_sound {n : ℕ} {s r : List Char} {v : Json} (h : value n s = some (v, r)) :
    ∃ t, s = t ++ r ∧ Value t v := by
  induction n generalizing s r v with
  | zero => cases s <;> simp [value] at h
  | succ n ih =>
    cases s with
    | nil => simp [value] at h
    | cons c s =>
      simp only [value] at h
      split_ifs at h with hq ha ho
      · obtain ⟨⟨cs, r'⟩, hs, he⟩ := Option.map_eq_some_iff.1 h
        cases he
        obtain ⟨t, as, rfl, ht, rfl⟩ := scanString_sound hs
        exact ⟨'"' :: (t ++ ['"']), by simp [hq], .string ht⟩
      · obtain ⟨⟨vs, r'⟩, hs, he⟩ := Option.map_eq_some_iff.1 h
        cases he
        obtain ⟨t, rfl, ht⟩ := bracketed_sound (fun _ _ _ => ih) hs
        exact ⟨'[' :: (t ++ [']']), by simp [ha], .array (fun _ _ => id) ht⟩
      · obtain ⟨⟨ms, r'⟩, hs, he⟩ := Option.map_eq_some_iff.1 h
        cases he
        obtain ⟨t, rfl, ht⟩ := bracketed_sound (member_sound fun _ _ _ => ih) hs
        exact ⟨'{' :: (t ++ ['}']), by simp [ho], .object (fun _ _ => id) ht⟩
      · exact scalar_sound h

/-! ## The decoder reads every text of a value -/

/-- A text that no number goes on with. -/
def NumberEnds (s : List Char) : Prop :=
  ∀ c ∈ s.head?, isDigit c = false ∧ c ≠ '.' ∧ c ≠ 'e' ∧ c ≠ 'E'

theorem skip_append {w s : List Char} (hw : Ws w) (hs : ∀ c ∈ s.head?, isWs c = false) :
    skip (w ++ s) = s := by
  rw [skip, List.dropWhile_append_of_pos hw]
  cases s with
  | nil => rfl
  | cons c s => exact List.dropWhile_cons_of_neg (by simpa using hs c rfl)

theorem takeWhile_digits {ds r : List Char} (h : ∀ d ∈ ds, isDigit d = true)
    (hr : ∀ c ∈ r.head?, isDigit c = false) :
    (ds ++ r).takeWhile isDigit = ds ∧ (ds ++ r).dropWhile isDigit = r := by
  rw [List.takeWhile_append_of_pos h, List.dropWhile_append_of_pos h]
  cases r with
  | nil => simp
  | cons c r =>
    have hc := hr c rfl
    simp [hc]

theorem character_complete {t : List Char} {n : ℕ} (h : Character t n) (r : List Char) :
    character (t ++ r) = some (n, r) := by
  cases h with
  | plain c hc hq hb => simp [character, hb, show ¬ c.toNat < 0x20 by omega]
  | escape e n he h => simp [character, he, h]
  | unicode a b c d n h => simp [character, h]

theorem character_head {t : List Char} {n : ℕ} (h : Character t n) :
    ∃ c u, t = c :: u ∧ c ≠ '"' := by
  cases h with
  | plain c hc hq hb => exact ⟨c, [], rfl, hq⟩
  | escape e n he h => exact ⟨'\\', [e], rfl, by decide⟩
  | unicode a b c d n h => exact ⟨'\\', _, rfl, by decide⟩

theorem stringBody_complete {t : List Char} {cs : PyStr} (h : StringBody t cs) {n : ℕ}
    {r : List Char} (hn : t.length < n) : stringBody n (t ++ '"' :: r) = some (cs, r) := by
  induction h generalizing n with
  | nil =>
    cases n with
    | zero => exact absurd hn (by simp)
    | succ n => simp [stringBody]
  | @cons t u a as ha _ ih =>
    obtain ⟨c, t', rfl, hq⟩ := character_head ha
    cases n with
    | zero => exact absurd hn (by simp)
    | succ n =>
      have hread := character_complete ha (u ++ '"' :: r)
      rw [List.cons_append] at hread
      rw [List.append_assoc, List.cons_append, stringBody, if_neg hq, hread]
      simp only [List.length_append, List.length_cons] at hn
      simp [ih (n := n) (by omega)]

theorem scanString_complete {t : List Char} {cs : PyStr} (h : StringBody t cs) (r : List Char) :
    scanString (t ++ '"' :: r) = some (joinSurrogates cs, r) := by
  rw [scanString, stringBody_complete h (by simp), Option.map_some]

theorem isDigit_ne {d : Char} (h : isDigit d = true) :
    isWs d = false ∧ d ≠ '.' ∧ d ≠ 'e' ∧ d ≠ 'E' ∧ d ≠ '-' ∧ d ≠ '+' ∧ d ≠ '"' ∧ d ≠ '[' ∧
      d ≠ '{' ∧ d ≠ ']' := by
  refine ⟨?_, ?_, ?_, ?_, ?_, ?_, ?_, ?_, ?_, ?_⟩
  · rw [Bool.eq_false_iff]
    intro hw
    simp only [isWs, Bool.or_eq_true, decide_eq_true_eq] at hw
    rcases hw with ((rfl | rfl) | rfl) | rfl <;> revert h <;> decide
  all_goals
    rintro rfl
    revert h
    decide

theorem exponent_complete {u r : List Char} {e : Option (Option Char × List Char)}
    (h : Exponent u e) (hr : NumberEnds r) : exponent (u ++ r) = (e, r) := by
  cases h with
  | none =>
    cases r with
    | nil => rfl
    | cons c r =>
      obtain ⟨-, -, he, hE⟩ := hr c rfl
      simp [exponent, he, hE]
  | some c sgn ds hc hs hne h =>
    obtain ⟨htake, hdrop⟩ := takeWhile_digits h fun c hc => (hr c hc).1
    have hsign : sign (sgn.toList ++ ds ++ r) = (sgn, ds ++ r) := by
      cases sgn with
      | some s => simp [sign, hs s rfl]
      | none =>
        obtain ⟨d, ds, rfl⟩ := List.exists_cons_of_ne_nil hne
        obtain ⟨-, -, -, -, hminus, hplus, -⟩ := isDigit_ne (h d List.mem_cons_self)
        simp [sign, hminus, hplus]
    rw [List.cons_append, exponent, hsign, htake, hdrop, if_pos ⟨hc, hne⟩]

theorem exponent_head {u r : List Char} {e : Option (Option Char × List Char)}
    (h : Exponent u e) (hr : NumberEnds r) :
    ∀ c ∈ (u ++ r).head?, isDigit c = false ∧ c ≠ '.' := by
  cases h with
  | none => exact fun c hc => ⟨(hr c hc).1, (hr c hc).2.1⟩
  | some c sgn ds hc hs hne h =>
    rintro _ ⟨⟩
    rcases hc with rfl | rfl <;> decide

theorem fraction_complete {t r f : List Char} (h : Fraction t f)
    (hr : ∀ c ∈ r.head?, isDigit c = false ∧ c ≠ '.') : fraction (t ++ r) = (f, r) := by
  cases h with
  | none =>
    cases r with
    | nil => rfl
    | cons c r => simp [fraction, (hr c rfl).2]
  | some _ hne h =>
    obtain ⟨htake, hdrop⟩ := takeWhile_digits h fun c hc => (hr c hc).1
    rw [List.cons_append, fraction, htake, hdrop, if_pos ⟨rfl, hne⟩]

theorem integer_complete {i r : List Char} (h : Integer i)
    (hr : ∀ c ∈ r.head?, isDigit c = false) : integer (i ++ r) = some (i, r) := by
  cases h with
  | zero => rfl
  | digits c ds h0 h =>
    obtain ⟨htake, hdrop⟩ := takeWhile_digits h hr
    rw [List.cons_append] at htake hdrop
    rw [List.cons_append, integer, if_neg h0, if_pos (h c List.mem_cons_self), htake, hdrop]

theorem unsigned_complete {neg : Bool} {t r : List Char} {v : Json} (h : Unsigned neg t v)
    (hr : NumberEnds r) : unsigned neg (t ++ r) = some (v, r) := by
  obtain ⟨hi, hf, he⟩ := h
  rename_i i t f u e
  have hu := exponent_head he hr
  have ht : ∀ c ∈ (t ++ (u ++ r)).head?, isDigit c = false := by
    cases hf with
    | none => exact fun c hc => (hu c hc).1
    | some _ _ _ =>
      rintro _ ⟨⟩
      decide
  rw [List.append_assoc, List.append_assoc, unsigned, integer_complete hi ht]
  simp [fraction_complete hf hu, exponent_complete he hr]

theorem unsigned_head {neg : Bool} {t : List Char} {v : Json} (h : Unsigned neg t v) :
    ∃ d u, t = d :: u ∧ isDigit d = true := by
  obtain ⟨hi, -, -⟩ := h
  cases hi with
  | zero => exact ⟨'0', _, rfl, by decide⟩
  | digits c ds h0 h => exact ⟨c, _, rfl, h c List.mem_cons_self⟩

theorem word_complete {w : List Char × Json} (h : w ∈ words) (r : List Char) :
    scalar (w.1 ++ r) = some (w.2, r) := by
  simp only [words, List.mem_cons, List.not_mem_nil, or_false] at h
  rcases h with rfl | rfl | rfl | rfl | rfl | rfl <;> rfl

/-- No word starts with a digit. -/
theorem word_head {w : List Char × Json} (h : w ∈ words) :
    ∃ c u, w.1 = c :: u ∧ isDigit c = false ∧ isWs c = false ∧ c ≠ '"' ∧ c ≠ '[' ∧ c ≠ '{' ∧
      c ≠ ']' := by
  simp only [words, List.mem_cons, List.not_mem_nil, or_false] at h
  rcases h with rfl | rfl | rfl | rfl | rfl | rfl <;> exact ⟨_, _, rfl, by decide⟩

theorem scalar_positive {t r : List Char} {v : Json} (h : Unsigned false t v)
    (hr : NumberEnds r) : scalar (t ++ r) = some (v, r) := by
  have hread := unsigned_complete h hr
  obtain ⟨d, u, rfl, hd⟩ := unsigned_head h
  have hfind : words.find? (fun w => w.1.isPrefixOf (d :: u ++ r)) = none := by
    refine List.find?_eq_none.2 fun w hw hp => ?_
    obtain ⟨c, x, hx, hc, -⟩ := word_head hw
    obtain ⟨y, hy⟩ := List.isPrefixOf_iff_prefix.1 hp
    rw [hx, List.cons_append, List.cons_append, List.cons.injEq] at hy
    simp [← hy.1, hc] at hd
  obtain ⟨-, -, -, -, hminus, -⟩ := isDigit_ne hd
  simp only [scalar, hfind]
  rw [List.cons_append] at hread ⊢
  rw [number, if_neg hminus, hread]

theorem scalar_negative {t r : List Char} {v : Json} (h : Unsigned true t v)
    (hr : NumberEnds r) : scalar ('-' :: t ++ r) = some (v, r) := by
  have hread := unsigned_complete h hr
  obtain ⟨d, u, rfl, hd⟩ := unsigned_head h
  have hI : d ≠ 'I' := by
    rintro rfl
    revert hd
    decide
  have hfind : words.find? (fun w => w.1.isPrefixOf ('-' :: (d :: u) ++ r)) = none := by
    refine List.find?_eq_none.2 fun w hw hp => ?_
    obtain ⟨y, hy⟩ := List.isPrefixOf_iff_prefix.1 hp
    simp only [words, List.mem_cons, List.not_mem_nil, or_false] at hw
    rcases hw with rfl | rfl | rfl | rfl | rfl | rfl <;> simp [chars] at hy
    exact hI hy.1.symm
  simp only [scalar, hfind]
  rw [List.cons_append, number, if_pos rfl, hread]

theorem value_head {t : List Char} {v : Json} (h : Value t v) :
    ∃ c u, t = c :: u ∧ isWs c = false ∧ c ≠ ']' := by
  cases h with
  | word h =>
    obtain ⟨c, u, hc, -, hw, -, -, -, hne⟩ := word_head h
    exact ⟨c, u, hc, hw, hne⟩
  | positive h =>
    obtain ⟨d, u, rfl, hd⟩ := unsigned_head h
    exact ⟨d, u, rfl, (isDigit_ne hd).1, (isDigit_ne hd).2.2.2.2.2.2.2.2.2⟩
  | negative _ => exact ⟨'-', _, rfl, by decide⟩
  | string _ => exact ⟨'"', _, rfl, by decide⟩
  | array _ _ => exact ⟨'[', _, rfl, by decide⟩
  | object _ _ => exact ⟨'{', _, rfl, by decide⟩

theorem member_head {P : List Char → Json → Prop} {t : List Char} {m : PyStr × Json}
    (h : Member P t m) : ∃ c u, t = c :: u ∧ isWs c = false ∧ c ≠ '}' := by
  cases h
  exact ⟨'"', _, rfl, by decide⟩

theorem isWs_ne {c : Char} (h : isWs c = true) :
    isDigit c = false ∧ c ≠ '.' ∧ c ≠ 'e' ∧ c ≠ 'E' := by
  simp only [isWs, Bool.or_eq_true, decide_eq_true_eq] at h
  rcases h with ((rfl | rfl) | rfl) | rfl <;> decide

/-- Whitespace and a comma or a closing bracket end a number. -/
theorem numberEnds_append {w : List Char} (hw : Ws w) {c : Char}
    (hc : c = ',' ∨ c = ']' ∨ c = '}') (r : List Char) : NumberEnds (w ++ c :: r) := by
  cases w with
  | nil =>
    rintro _ ⟨⟩
    rcases hc with rfl | rfl | rfl <;> decide
  | cons d w =>
    rintro _ ⟨⟩
    exact isWs_ne (hw d List.mem_cons_self)

section
variable {α : Type} {P : List Char → α → Prop} {item : List Char → Option (α × List Char)}
variable {close : Char} {m : ℕ}

theorem sequence_head (hhead : ∀ t a, P t a → ∃ c u, t = c :: u ∧ isWs c = false ∧ c ≠ close)
    {t : List Char} {as : List α} (h : Sequence P t as) :
    ∃ c u, t = c :: u ∧ isWs c = false ∧ c ≠ close := by
  cases h with
  | last h _ | cons h _ _ _ =>
    obtain ⟨c, u, rfl, hc⟩ := hhead _ _ h
    exact ⟨c, _, rfl, hc⟩

theorem sequence_complete
    (hhead : ∀ t a, P t a → ∃ c u, t = c :: u ∧ isWs c = false ∧ c ≠ close)
    (hitem : ∀ t a r, P t a → t.length ≤ m → NumberEnds r → item (t ++ r) = some (a, r))
    (hclose : close = ']' ∨ close = '}') {t : List Char} {as : List α} (h : Sequence P t as)
    (hm : t.length ≤ m) {n : ℕ} (hn : t.length ≤ n) (r : List Char) :
    sequence item close n (t ++ close :: r) = some (as, r) := by
  have hcw : isWs close = false := by rcases hclose with rfl | rfl <;> decide
  induction h generalizing n with
  | @last t w a h hw =>
    obtain ⟨c, u, rfl, -⟩ := hhead _ _ h
    simp only [List.length_append, List.length_cons] at hm hn
    cases n with
    | zero => omega
    | succ n =>
      rw [List.append_assoc, sequence,
        hitem _ _ _ h (by simp only [List.length_cons]; omega) (numberEnds_append hw (.inr hclose) r)]
      simp [skip_append (s := close :: r) hw (by simpa using hcw)]
  | @cons t w w' u a as h hw hw' hs ih =>
    obtain ⟨c, x, rfl, -⟩ := hhead _ _ h
    obtain ⟨d, y, rfl, hd, -⟩ := sequence_head hhead hs
    simp only [List.length_append, List.length_cons] at hm hn
    cases n with
    | zero => omega
    | succ n =>
      have hcomma : (',' : Char) ≠ close := by rcases hclose with rfl | rfl <;> decide
      have hskip : ∀ s, skip (w ++ ',' :: s) = ',' :: s := fun s => skip_append hw (by simp [isWs])
      have htext : c :: x ++ (w ++ ',' :: (w' ++ d :: y)) ++ close :: r =
          c :: x ++ (w ++ ',' :: (w' ++ (d :: y ++ close :: r))) := by simp
      rw [htext, sequence,
        hitem _ _ _ h (by simp only [List.length_cons]; omega) (numberEnds_append hw (.inl rfl) _)]
      simp only [Option.bind_eq_bind, Option.bind_some, hskip]
      rw [if_neg hcomma, if_pos trivial, skip_append hw' (by simpa using hd),
        ih (by simp only [List.length_cons]; omega) (by simp only [List.length_cons]; omega)]
      rfl

theorem bracketed_complete
    (hhead : ∀ t a, P t a → ∃ c u, t = c :: u ∧ isWs c = false ∧ c ≠ close)
    (hitem : ∀ t a r, P t a → t.length ≤ m → NumberEnds r → item (t ++ r) = some (a, r))
    (hclose : close = ']' ∨ close = '}') {t : List Char} {as : List α} (h : Bracketed P t as)
    (hm : t.length ≤ m) (r : List Char) :
    bracketed item close m (t ++ close :: r) = some (as, r) := by
  have hcw : isWs close = false := by rcases hclose with rfl | rfl <;> decide
  cases h with
  | empty hw => simp [bracketed, skip_append (s := close :: r) hw (by simpa using hcw)]
  | @items w t as hw hs =>
    rw [List.length_append] at hm
    have hseq := sequence_complete hhead hitem hclose hs (by omega) (show t.length ≤ m by omega) r
    obtain ⟨c, u, rfl, hc, hne⟩ := sequence_head hhead hs
    rw [List.append_assoc, bracketed, skip_append hw (by simpa using hc)]
    rw [List.cons_append] at hseq ⊢
    simp only
    rw [if_neg hne, hseq]

end

theorem member_complete {read : List Char → Option (Json × List Char)}
    {P : List Char → Json → Prop} {n : ℕ}
    (hhead : ∀ t v, P t v → ∃ c u, t = c :: u ∧ isWs c = false ∧ c ≠ ']')
    (hread : ∀ t v r, P t v → t.length ≤ n → NumberEnds r → read (t ++ r) = some (v, r))
    (t : List Char) (m : PyStr × Json) (r : List Char) (h : Member P t m) (hn : t.length ≤ n)
    (hr : NumberEnds r) : member read (t ++ r) = some (m, r) := by
  obtain ⟨hk, hw, hw', hv⟩ := h
  rename_i k cs w w' t v
  have hvalue := hread t v r hv (by simp at hn; omega) hr
  obtain ⟨c, u, rfl, hc, -⟩ := hhead _ _ hv
  simp only [List.cons_append, List.append_assoc, member, if_true]
  rw [scanString_complete hk]
  simp only [Option.bind_eq_bind, Option.bind_some]
  rw [skip_append (s := ':' :: _) hw (by simp [isWs])]
  simp only [if_true]
  rw [← List.cons_append, skip_append hw' (by simpa using hc), hvalue]
  rfl

/-- **The decoder reads every text of a value**, whatever comes behind it, as long as it cannot be
the rest of a number. -/
theorem value_complete {t : List Char} {v : Json} (h : Value t v) {n : ℕ} (hn : t.length ≤ n)
    {r : List Char} (hr : NumberEnds r ∨ t.head? = some '{') :
    value n (t ++ r) = some (v, r) := by
  induction h generalizing n r with
  | @word w h =>
    obtain ⟨c, u, hw, -, -, hq, ha, ho, -⟩ := word_head h
    have hread := word_complete h r
    rw [hw] at hread hn ⊢
    cases n with
    | zero => simp at hn
    | succ n => rw [List.cons_append, value, if_neg hq, if_neg ha, if_neg ho, ← List.cons_append,
        hread]
  | @positive t v h =>
    obtain ⟨d, u, rfl, hd⟩ := unsigned_head h
    obtain ⟨-, -, -, -, -, -, hq, ha, ho, -⟩ := isDigit_ne hd
    cases n with
    | zero => simp at hn
    | succ n =>
      rw [List.cons_append, value, if_neg hq, if_neg ha, if_neg ho, ← List.cons_append]
      exact scalar_positive h (hr.resolve_right (by simpa using ho))
  | negative h =>
    cases n with
    | zero => simp at hn
    | succ n =>
      rw [List.cons_append, value, if_neg (by decide), if_neg (by decide), if_neg (by decide),
        ← List.cons_append]
      exact scalar_negative h (hr.resolve_right (by simp))
  | string h =>
    cases n with
    | zero => simp at hn
    | succ n => simp [value, scanString_complete h]
  | array hQ h ih =>
    simp only [List.length_cons, List.length_append, List.length_nil] at hn
    cases n with
    | zero => omega
    | succ n =>
      have hread := bracketed_complete (m := n) (fun t v hq => value_head (hQ t v hq))
        (fun t v r hq hm hr => ih t v hq hm (.inl hr)) (.inl rfl) h (by omega) r
      simp [value, hread]
  | object hQ h ih =>
    simp only [List.length_cons, List.length_append, List.length_nil] at hn
    cases n with
    | zero => omega
    | succ n =>
      have hread := bracketed_complete (m := n) (fun t v => member_head)
        (member_complete (fun t v hq => value_head (hQ t v hq))
          fun t v r hq hm hr => ih t v hq hm (.inl hr)) (.inr rfl) h (by omega) r
      simp [value, hread]

/-! ## Object texts -/

/-- **An object is read off the start of a text**, whatever follows it. -/
theorem rawDecode_object {t : List Char} {d : Dict} (h : ObjectText t d) (r : List Char) :
    rawDecode (t ++ r) = some (.obj d, r) :=
  value_complete h.2 (by simp) (.inr h.1)

/-- A value is at least one character. -/
theorem rawDecode_length {s r : List Char} {v : Json} (h : rawDecode s = some (v, r)) :
    r.length < s.length := by
  obtain ⟨t, rfl, ht⟩ := value_sound h
  obtain ⟨c, u, rfl, -⟩ := value_head ht
  simp only [List.length_append, List.length_cons]
  omega

/-- A text that starts with a brace and decodes is an object text and what follows it. -/
theorem rawDecode_brace {s r : List Char} {v : Json} (h : rawDecode s = some (v, r))
    (hs : s.head? = some '{') : ∃ t d, s = t ++ r ∧ v = .obj d ∧ ObjectText t d := by
  obtain ⟨t, rfl, ht⟩ := value_sound h
  obtain ⟨c, u, rfl, -⟩ := value_head ht
  have hc : c = '{' := by simpa using hs
  subst hc
  cases v with
  | obj d => exact ⟨_, d, rfl, rfl, rfl, ht⟩
  | _ =>
    have hread := value_complete ht (n := u.length + 1) (by simp) (r := []) (.inr rfl)
    rw [List.cons_append, value, if_neg (by decide), if_neg (by decide), if_pos rfl] at hread
    obtain ⟨_, _, he⟩ := Option.map_eq_some_iff.1 hread
    cases he

/-- Only a text that starts with a brace is a text of an object. -/
theorem objectText_of_value {t : List Char} {d : Dict} (h : Value t (.obj d)) :
    ObjectText t d := by
  refine ⟨?_, h⟩
  generalize hv : Json.obj d = v at h
  cases h with
  | word h =>
    simp only [words, List.mem_cons, List.not_mem_nil, or_false] at h
    rcases h with rfl | rfl | rfl | rfl | rfl | rfl <;> cases hv
  | positive h | negative h =>
    obtain ⟨-, -, -⟩ := h
    simp only [numberValue] at hv
    repeat' split at hv
    all_goals cases hv
  | object _ _ => rfl
  | _ => cases hv

/-- An object that was read off a text is read off it whatever follows. -/
theorem rawDecode_append {s r : List Char} {d : Dict} (h : rawDecode s = some (.obj d, r))
    (u : List Char) : rawDecode (s ++ u) = some (.obj d, r ++ u) := by
  obtain ⟨t, rfl, ht⟩ := value_sound h
  rw [List.append_assoc, rawDecode_object (objectText_of_value ht)]

/-- **An object text with its end cut off decodes to nothing.** -/
theorem rawDecode_prefix {t p u : List Char} {d : Dict} (h : ObjectText t d) (ht : t = p ++ u)
    (hp : p ≠ []) (hu : u ≠ []) : rawDecode p = none := by
  rw [Option.eq_none_iff_forall_not_mem]
  rintro ⟨v, r⟩ hv
  have hhead : p.head? = some '{' := by
    obtain ⟨c, p, rfl⟩ := List.exists_cons_of_ne_nil hp
    simpa [ht] using h.1
  obtain ⟨t', d', rfl, rfl, ht'⟩ := rawDecode_brace hv hhead
  -- the shorter object would be read off the longer one as well
  have hshort := rawDecode_object ht' (r ++ u)
  rw [← List.append_assoc, ← ht, ← List.append_nil t, rawDecode_object h] at hshort
  simp_all

end TradeStation.Python.Json
