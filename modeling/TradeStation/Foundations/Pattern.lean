import Mathlib.Data.List.Infix
import Mathlib.Data.List.Count
import Mathlib.Data.Nat.Notation

/-!
# Patterns and substitution

A small language of patterns over any alphabet: single letters, greedy repetitions of a class of
letters, and the edges of words. Matching backtracks, the longest repetition first, and a
substitution goes through the text from left to right, looking for the next match behind the last.

* `Pattern.matchAt` is the matcher and `Pattern.Spells` what it means: `matchAt_spells` and
  `matchAt_isSome`.
* `Pattern.sub` is the substitution, with the induction rule `sub_induction`.
* `Pattern.Quiet`: the pattern begins nowhere in the text. Such a text is left as it is
  (`sub_eq_self`), and by `count_sub` no other one is, if the mark has a letter that the pattern
  rejects.
* `quiet_sub`: for a pattern that is fenced by edges, what a substitution leaves is quiet.
-/

namespace TradeStation.Foundations

/-- A piece of a pattern. -/
inductive Piece (α : Type)
  /-- One letter of the class. -/
  | one (p : α → Bool)
  /-- As many letters of the class as can be, and no fewer than `least`. -/
  | many (p : α → Bool) (least : ℕ)
  /-- A letter of a word on one side only. -/
  | edge (word : α → Bool)

/-- A pattern: its parts follow one another. -/
abbrev Pattern (α : Type) := List (Piece α)

namespace Pattern

variable {α : Type}

/-- The letter in front of what follows `w`. -/
def lastOr (before : Option α) (w : List α) : Option α := w.getLast?.or before

@[simp] theorem lastOr_nil (before : Option α) : lastOr before [] = before := rfl

@[simp] theorem lastOr_cons (before : Option α) (c : α) (w : List α) :
    lastOr before (c :: w) = lastOr (some c) w := by
  unfold lastOr
  cases hw : w.getLast? with
  | none =>
    rw [List.getLast?_eq_none_iff] at hw
    simp [hw]
  | some d => simp [List.getLast?_cons, hw]

theorem lastOr_append (before : Option α) (w w' : List α) :
    lastOr before (w ++ w') = lastOr (lastOr before w) w' := by
  induction w generalizing before with
  | nil => rfl
  | cons c w ih => simp [ih]

/-- Between two letters, either of which may be missing, a word begins or ends. -/
def atEdge (word : α → Bool) (before after : Option α) : Bool := before.any word != after.any word

/-- The length of the match at the head of a text, with the letter in front of it. -/
def matchAt : Pattern α → Option α → List α → Option ℕ
  | [], _, _ => some 0
  | .one _ :: _, _, [] => none
  | .one p :: parts, _, c :: s =>
    if p c then (matchAt parts (some c) s).map (· + 1) else none
  | .edge word :: parts, before, s =>
    if atEdge word before s.head? then matchAt parts before s else none
  | .many p least :: parts, before, s =>
    let longest := (s.takeWhile p).length
    -- the longest repetition first, and then one letter less each time
    ((List.range (longest + 1 - least)).map (longest - ·)).findSome? fun n =>
      (matchAt parts (lastOr before (s.take n)) (s.drop n)).map (n + ·)

/-- The text `w`, between `before` and `rest`, is one of the texts of the pattern. -/
def Spells : Pattern α → Option α → List α → List α → Prop
  | [], _, w, _ => w = []
  | .one p :: parts, _, w, rest => ∃ c w', w = c :: w' ∧ p c = true ∧ Spells parts (some c) w' rest
  | .edge word :: parts, before, w, rest =>
    atEdge word before (w ++ rest).head? = true ∧ Spells parts before w rest
  | .many p least :: parts, before, w, rest =>
    ∃ u w', w = u ++ w' ∧ (∀ c ∈ u, p c = true) ∧ least ≤ u.length ∧
      Spells parts (lastOr before u) w' rest

/-! ## The matcher -/

theorem forall_mem_take {p : α → Bool} {s : List α} {n : ℕ} (h : n ≤ (s.takeWhile p).length) :
    ∀ c ∈ s.take n, p c = true := by
  have htaken : s.take n <+: s.takeWhile p :=
    List.prefix_of_prefix_length_le (List.take_prefix n s) (List.takeWhile_prefix p)
      (by rw [List.length_take]; omega)
  intro c hc
  exact List.all_eq_true.1 List.all_takeWhile c (htaken.subset hc)

theorem length_le_takeWhile {p : α → Bool} {u : List α} (rest : List α)
    (h : ∀ c ∈ u, p c = true) : u.length ≤ ((u ++ rest).takeWhile p).length := by
  rw [List.takeWhile_append_of_pos h, List.length_append]
  omega

/-- A match spells the pattern. -/
theorem matchAt_spells {pattern : Pattern α} {before : Option α} {s : List α} {n : ℕ}
    (h : matchAt pattern before s = some n) :
    ∃ w rest, s = w ++ rest ∧ w.length = n ∧ Spells pattern before w rest := by
  induction pattern generalizing before s n with
  | nil =>
    cases h
    exact ⟨[], s, rfl, rfl, rfl⟩
  | cons part parts ih =>
    cases part with
    | one p =>
      cases s with
      | nil => cases h
      | cons c s =>
        rw [matchAt] at h
        split_ifs at h with hp
        obtain ⟨n, hn, rfl⟩ := Option.map_eq_some_iff.1 h
        obtain ⟨w, rest, rfl, rfl, hw⟩ := ih hn
        exact ⟨c :: w, rest, rfl, rfl, c, w, rfl, hp, hw⟩
    | edge word =>
      rw [matchAt] at h
      split_ifs at h with hedge
      obtain ⟨w, rest, rfl, rfl, hw⟩ := ih h
      exact ⟨w, rest, rfl, rfl, hedge, hw⟩
    | many p least =>
      rw [matchAt] at h
      obtain ⟨k, hk, hmatch⟩ := List.exists_of_findSome?_eq_some h
      obtain ⟨i, hi, rfl⟩ := List.mem_map.1 hk
      rw [List.mem_range] at hi
      obtain ⟨n, hn, rfl⟩ := Option.map_eq_some_iff.1 hmatch
      obtain ⟨w, rest, hrest, rfl, hw⟩ := ih hn
      set longest := (s.takeWhile p).length with hlongest
      have hle : longest - i ≤ s.length := by
        have hwhole := (List.takeWhile_prefix p (l := s)).length_le
        omega
      refine ⟨s.take (longest - i) ++ w, rest, ?_, by simp [hle], s.take (longest - i), w, rfl, ?_,
        ?_, hw⟩
      · rw [List.append_assoc, ← hrest, List.take_append_drop]
      · exact forall_mem_take (by omega)
      · rw [List.length_take]
        omega

/-- **The matcher finds what there is.** -/
theorem matchAt_isSome {pattern : Pattern α} {before : Option α} {s : List α} :
    (matchAt pattern before s).isSome = true ↔
      ∃ w rest, s = w ++ rest ∧ Spells pattern before w rest := by
  constructor
  · intro h
    obtain ⟨n, hn⟩ := Option.isSome_iff_exists.1 h
    obtain ⟨w, rest, hs, -, hw⟩ := matchAt_spells hn
    exact ⟨w, rest, hs, hw⟩
  · rintro ⟨w, rest, rfl, hw⟩
    induction pattern generalizing before w with
    | nil => rfl
    | cons part parts ih =>
      cases part with
      | one p =>
        obtain ⟨c, w, rfl, hp, hw⟩ := hw
        rw [List.cons_append, matchAt, if_pos hp, Option.isSome_map]
        exact ih w hw
      | edge word =>
        obtain ⟨hedge, hw⟩ := hw
        rw [matchAt, if_pos hedge]
        exact ih w hw
      | many p least =>
        obtain ⟨u, w, rfl, hu, hleast, hw⟩ := hw
        have hlong := length_le_takeWhile (w ++ rest) hu
        rw [← List.append_assoc] at hlong
        rw [matchAt, List.findSome?_isSome_iff]
        set longest := (((u ++ w) ++ rest).takeWhile p).length with hlongest
        refine ⟨u.length, List.mem_map.2 ⟨longest - u.length, ?_, by omega⟩, ?_⟩
        · rw [List.mem_range]
          omega
        · rw [Option.isSome_map, List.append_assoc, List.take_left, List.drop_left]
          exact ih w hw

theorem matchAt_eq_none {pattern : Pattern α} {before : Option α} {s : List α} :
    matchAt pattern before s = none ↔
      ∀ w rest, s = w ++ rest → ¬Spells pattern before w rest := by
  rw [← Option.isNone_iff_eq_none, ← Option.not_isSome, Bool.not_eq_true', ← Bool.not_eq_true,
    matchAt_isSome]
  push Not
  exact Iff.rfl

/-! ## What a pattern can spell -/

/-- The part takes the letter. -/
def accepts (c : α) : Piece α → Bool
  | .one p | .many p _ => p c
  | .edge _ => false

/-- The fewest letters of a text of the pattern. -/
def least : Pattern α → ℕ
  | [] => 0
  | .one _ :: parts => 1 + least parts
  | .many _ n :: parts => n + least parts
  | .edge _ :: parts => least parts

/-- No part takes the letter. -/
def Rejects (pattern : Pattern α) (c : α) : Prop := ∀ part ∈ pattern, accepts c part = false

instance (pattern : Pattern α) (c : α) : Decidable (Rejects pattern c) :=
  inferInstanceAs (Decidable (∀ part ∈ pattern, accepts c part = false))

/-- The part looks beyond the text. -/
def isEdge : Piece α → Bool
  | .edge _ => true
  | .one _ | .many _ _ => false

/-- No part looks beyond the text. -/
def Plain (pattern : Pattern α) : Prop := ∀ part ∈ pattern, isEdge part = false

instance (pattern : Pattern α) : Decidable (Plain pattern) :=
  inferInstanceAs (Decidable (∀ part ∈ pattern, isEdge part = false))

theorem Spells.least_le {pattern : Pattern α} {before : Option α} {w rest : List α}
    (h : Spells pattern before w rest) : least pattern ≤ w.length := by
  induction pattern generalizing before w with
  | nil => exact Nat.zero_le _
  | cons part parts ih =>
    cases part with
    | one p =>
      obtain ⟨c, w, rfl, -, hw⟩ := h
      have hle := ih hw
      simp only [least, List.length_cons]
      omega
    | edge word => exact ih h.2
    | many p n =>
      obtain ⟨u, w, rfl, -, hn, hw⟩ := h
      have hle := ih hw
      simp only [least, List.length_append]
      omega

theorem Spells.not_mem {pattern : Pattern α} {before : Option α} {w rest : List α} {o : α}
    (h : Spells pattern before w rest) (ho : Rejects pattern o) : o ∉ w := by
  induction pattern generalizing before w with
  | nil =>
    obtain rfl : w = [] := h
    exact List.not_mem_nil
  | cons part parts ih =>
    obtain ⟨hpart, hparts⟩ := List.forall_mem_cons.1 ho
    cases part with
    | one p =>
      obtain ⟨c, w, rfl, hp, hw⟩ := h
      rintro (_ | ⟨_, hmem⟩)
      · rw [accepts, hp] at hpart
        cases hpart
      · exact ih hw hparts hmem
    | edge word => exact ih h.2 hparts
    | many p n =>
      obtain ⟨u, w, rfl, hu, -, hw⟩ := h
      intro hmem
      rcases List.mem_append.1 hmem with hmem | hmem
      · rw [accepts, hu o hmem] at hpart
        cases hpart
      · exact ih hw hparts hmem

theorem spells_append {pattern pattern' : Pattern α} {before : Option α} {w rest : List α} :
    Spells (pattern ++ pattern') before w rest ↔
      ∃ u v, w = u ++ v ∧ Spells pattern before u (v ++ rest) ∧
        Spells pattern' (lastOr before u) v rest := by
  induction pattern generalizing before w with
  | nil =>
    constructor
    · exact fun h => ⟨[], w, rfl, rfl, h⟩
    · rintro ⟨u, v, rfl, rfl, h⟩
      exact h
  | cons part parts ih =>
    cases part with
    | one p =>
      constructor
      · rintro ⟨c, w, rfl, hp, h⟩
        obtain ⟨u, v, rfl, hu, hv⟩ := ih.1 h
        exact ⟨c :: u, v, rfl, ⟨c, u, rfl, hp, hu⟩, by rwa [lastOr_cons]⟩
      · rintro ⟨_, v, rfl, ⟨c, u, rfl, hp, hu⟩, hv⟩
        rw [lastOr_cons] at hv
        exact ⟨c, u ++ v, rfl, hp, ih.2 ⟨u, v, rfl, hu, hv⟩⟩
    | edge word =>
      constructor
      · rintro ⟨hedge, h⟩
        obtain ⟨u, v, rfl, hu, hv⟩ := ih.1 h
        exact ⟨u, v, rfl, ⟨by rwa [← List.append_assoc], hu⟩, hv⟩
      · rintro ⟨u, v, rfl, ⟨hedge, hu⟩, hv⟩
        exact ⟨by rwa [List.append_assoc], ih.2 ⟨u, v, rfl, hu, hv⟩⟩
    | many p n =>
      constructor
      · rintro ⟨t, w, rfl, ht, hn, h⟩
        obtain ⟨u, v, rfl, hu, hv⟩ := ih.1 h
        refine ⟨t ++ u, v, (List.append_assoc _ _ _).symm, ⟨t, u, rfl, ht, hn, hu⟩, ?_⟩
        rwa [lastOr_append]
      · rintro ⟨_, v, rfl, ⟨t, u, rfl, ht, hn, hu⟩, hv⟩
        rw [lastOr_append] at hv
        exact ⟨t, u ++ v, List.append_assoc _ _ _, ht, hn, ih.2 ⟨u, v, rfl, hu, hv⟩⟩

/-- What a plain pattern spells does not depend on what stands around it. -/
theorem Spells.of_plain {pattern : Pattern α} (hplain : Plain pattern) {before before' : Option α}
    {w rest rest' : List α} (h : Spells pattern before w rest) :
    Spells pattern before' w rest' := by
  induction pattern generalizing before before' w with
  | nil => exact h
  | cons part parts ih =>
    obtain ⟨hpart, hparts⟩ := List.forall_mem_cons.1 hplain
    cases part with
    | one p =>
      obtain ⟨c, w, rfl, hp, hw⟩ := h
      exact ⟨c, w, rfl, hp, ih hparts hw⟩
    | edge word => cases hpart
    | many p n =>
      obtain ⟨u, w, rfl, hu, hn, hw⟩ := h
      exact ⟨u, w, rfl, hu, hn, ih hparts hw⟩

/-- A pattern between two edges of a word. -/
def fenced (word : α → Bool) (core : Pattern α) : Pattern α := .edge word :: (core ++ [.edge word])

theorem least_fenced (word : α → Bool) (core : Pattern α) :
    least (fenced word core) = least core := by
  rw [fenced, least]
  induction core with
  | nil => rfl
  | cons part core ih => cases part <;> simp [least, ih]

theorem rejects_fenced {word : α → Bool} {core : Pattern α} {o : α} (h : Rejects core o) :
    Rejects (fenced word core) o := by
  intro part hpart
  rcases List.mem_cons.1 hpart with rfl | hpart
  · rfl
  rcases List.mem_append.1 hpart with hpart | hpart
  · exact h part hpart
  · rw [List.mem_singleton.1 hpart]
    rfl

theorem spells_fenced {word : α → Bool} {core : Pattern α} {before : Option α} {w rest : List α} :
    Spells (fenced word core) before w rest ↔ atEdge word before (w ++ rest).head? = true ∧
      Spells core before w rest ∧ atEdge word (lastOr before w) rest.head? = true := by
  refine and_congr_right fun _ => ?_
  rw [spells_append]
  constructor
  · rintro ⟨u, v, rfl, hu, hedge, rfl⟩
    exact ⟨by simpa using hu, by simpa using hedge⟩
  · rintro ⟨hw, hedge⟩
    exact ⟨w, [], (List.append_nil w).symm, hw, hedge, rfl⟩

/-! ## Substitution -/

/-- Put `mark` in place of every match, from left to right; `skip` letters of the last match are
still to be passed over. For patterns that do not match the empty text. -/
def sub (pattern : Pattern α) (mark : List α) : ℕ → Option α → List α → List α
  | _, _, [] => []
  | skip + 1, _, c :: s => sub pattern mark skip (some c) s
  | 0, before, c :: s =>
    match matchAt pattern before (c :: s) with
    | some (n + 1) => mark ++ sub pattern mark n (some c) s
    | _ => c :: sub pattern mark 0 (some c) s

/-- The pattern begins at no letter of the text. -/
def Quiet (pattern : Pattern α) : Option α → List α → Prop
  | _, [] => True
  | before, c :: s => matchAt pattern before (c :: s) = none ∧ Quiet pattern (some c) s

section
variable {pattern : Pattern α} {mark : List α}

theorem sub_skip (before : Option α) (w rest : List α) :
    sub pattern mark w.length before (w ++ rest) = sub pattern mark 0 (lastOr before w) rest := by
  induction w generalizing before with
  | nil => rfl
  | cons c w ih =>
    rw [List.length_cons, List.cons_append, sub, ih, lastOr_cons]

theorem sub_keep {before : Option α} {c : α} {s : List α}
    (h : matchAt pattern before (c :: s) = none) :
    sub pattern mark 0 before (c :: s) = c :: sub pattern mark 0 (some c) s := by
  rw [sub, h]

theorem sub_replace {before : Option α} {c : α} {w rest : List α}
    (h : matchAt pattern before (c :: w ++ rest) = some (c :: w).length) :
    sub pattern mark 0 before (c :: w ++ rest) =
      mark ++ sub pattern mark 0 (lastOr before (c :: w)) rest := by
  rw [List.cons_append] at h ⊢
  rw [sub, h, lastOr_cons]
  exact congrArg (mark ++ ·) (sub_skip _ w rest)

/-- **The course of a substitution**: at each letter it keeps the letter or replaces the text of a
match. -/
theorem sub_induction (mark : List α) (hpos : 0 < least pattern) {motive : Option α → List α → Prop}
    (nil : ∀ before, motive before [])
    (keep : ∀ before c s, matchAt pattern before (c :: s) = none →
      sub pattern mark 0 before (c :: s) = c :: sub pattern mark 0 (some c) s →
      motive (some c) s → motive before (c :: s))
    (replace : ∀ before c w rest, Spells pattern before (c :: w) rest →
      sub pattern mark 0 before (c :: w ++ rest) =
        mark ++ sub pattern mark 0 (lastOr before (c :: w)) rest →
      motive (lastOr before (c :: w)) rest → motive before (c :: w ++ rest)) :
    ∀ before s, motive before s := by
  intro before s
  induction hn : s.length using Nat.strong_induction_on generalizing before s with
  | _ n ih =>
  subst hn
  cases s with
  | nil => exact nil before
  | cons c s =>
    cases hmatch : matchAt pattern before (c :: s) with
    | none => exact keep before c s hmatch (sub_keep hmatch) (ih s.length (by simp) _ _ rfl)
    | some n =>
      obtain ⟨w, rest, hs, rfl, hw⟩ := matchAt_spells hmatch
      cases w with
      | nil => exact absurd hw.least_le (by simpa using hpos.ne')
      | cons d w =>
        obtain ⟨rfl, htail⟩ := List.cons.inj hs
        have hshorter : rest.length < (c :: s).length := by
          rw [htail, List.length_cons, List.append_eq, List.length_append]
          omega
        rw [hs] at hmatch ⊢
        exact replace before c w rest hw (sub_replace hmatch) (ih rest.length hshorter _ _ rfl)

/-- Nothing is replaced in a quiet text. -/
theorem sub_eq_self {before : Option α} {s : List α} (h : Quiet pattern before s) :
    sub pattern mark 0 before s = s := by
  induction s generalizing before with
  | nil => rfl
  | cons c s ih => rw [sub_keep h.1, ih h.2]

end

section
variable [DecidableEq α] {pattern : Pattern α} {mark : List α} {o : α}

/-- A letter of the mark that the pattern rejects only becomes more frequent, and stays as frequent
only in a quiet text. -/
theorem count_sub (hpos : 0 < least pattern) (hreject : Rejects pattern o) (hmark : o ∈ mark) :
    ∀ before s, s.count o ≤ (sub pattern mark 0 before s).count o ∧
      ((sub pattern mark 0 before s).count o = s.count o → Quiet pattern before s) := by
  refine sub_induction mark hpos ?_ ?_ ?_
  · exact fun before => ⟨le_rfl, fun _ => trivial⟩
  · intro before c s hmatch hsub ih
    rw [hsub, List.count_cons, List.count_cons]
    exact ⟨by omega, fun h => ⟨hmatch, ih.2 (by omega)⟩⟩
  · intro before c w rest hw hsub ih
    have hnone : (c :: w).count o = 0 := List.count_eq_zero.2 (hw.not_mem hreject)
    have hsome : 0 < mark.count o := List.count_pos_iff.2 hmark
    rw [hsub, List.count_append, List.count_append, hnone]
    exact ⟨by omega, fun h => by omega⟩

end

/-! ## What a substitution leaves -/

/-- The pattern begins nowhere in the mark, whatever follows. -/
def Silent (pattern : Pattern α) (mark : List α) : Prop :=
  ∀ u v, mark = u ++ v → v ≠ [] → ∀ before rest, matchAt pattern before (v ++ rest) = none

/-- A mark of fewer letters than the pattern needs, closed by a letter that it rejects. -/
theorem silent_of_short {pattern : Pattern α} {mark : List α} {l : α}
    (hshort : mark.length < least pattern) (hreject : Rejects pattern l) :
    Silent pattern (mark ++ [l]) := by
  intro u v hv hne before rest
  rw [matchAt_eq_none]
  intro w rest' hs hw
  have hlast : l ∈ v := by
    have hends := congrArg List.getLast? hv
    rw [List.getLast?_concat, List.getLast?_append, List.getLast?_eq_some_getLast hne] at hends
    cases hends
    exact List.getLast_mem hne
  have hle : v.length ≤ mark.length + 1 := by
    have hlength := congrArg List.length hv
    simp only [List.length_append, List.length_singleton] at hlength
    omega
  by_cases hlong : v.length ≤ w.length
  · have hshorter : v <+: w :=
      List.prefix_of_prefix_length_le ⟨rest, hs⟩ (List.prefix_append w rest') hlong
    exact hw.not_mem hreject (hshorter.subset hlast)
  · have hfew := hw.least_le
    omega

/-- A mark without a letter that the pattern can begin with. -/
theorem silent_of_first {parts : Pattern α} {p : α → Bool} {mark : List α}
    (hfirst : ∀ c ∈ mark, p c = false) : Silent (.one p :: parts) mark := by
  rintro u (_ | ⟨c, v⟩) rfl hne before rest
  · exact absurd rfl hne
  · have hc := hfirst c (by simp)
    rw [List.cons_append, matchAt, if_neg (by simp [hc])]

section
variable {pattern : Pattern α} {mark : List α}

theorem quiet_mark {before : Option α} {rest : List α} (hsilent : Silent pattern mark)
    (h : Quiet pattern (lastOr before mark) rest) : Quiet pattern before (mark ++ rest) := by
  induction mark generalizing before with
  | nil => exact h
  | cons c mark ih =>
    refine ⟨hsilent [] (c :: mark) rfl (by simp) before rest, ih ?_ (by rwa [lastOr_cons] at h)⟩
    rintro u v rfl
    exact hsilent (c :: u) v rfl

theorem Quiet.drop {before : Option α} {w rest : List α} (h : Quiet pattern before (w ++ rest)) :
    Quiet pattern (lastOr before w) rest := by
  induction w generalizing before with
  | nil => exact h
  | cons c w ih =>
    rw [lastOr_cons]
    exact ih h.2

/-- What comes before the first letter of a mark has not been touched. -/
theorem sub_untouched {o : α} {before : Option α} {s w rest : List α}
    (h : sub pattern (o :: mark) 0 before s = w ++ rest) (ho : o ∉ w) :
    ∃ t, s = w ++ t ∧ rest = sub pattern (o :: mark) 0 (lastOr before w) t := by
  induction w generalizing before s with
  | nil => exact ⟨s, rfl, h.symm⟩
  | cons c w ih =>
    obtain ⟨hne, hlater⟩ := not_or.1 (mt List.mem_cons.2 ho)
    cases s with
    | nil => cases h
    | cons d s =>
      rw [sub] at h
      split at h
      · exact absurd (List.cons.inj h).1 hne
      · obtain ⟨rfl, htail⟩ := List.cons.inj h
        obtain ⟨t, rfl, hrest⟩ := ih htail hlater
        exact ⟨t, rfl, by rwa [lastOr_cons]⟩

/-- **A plain pattern stays quiet** under the substitutions of another pattern, if it is silent in
the mark and rejects its first letter. -/
theorem Quiet.sub_plain {other : Pattern α} {o : α} (hpos : 0 < least pattern)
    (hplain : Plain other) (hreject : Rejects other o) (hsilent : Silent other (o :: mark)) :
    ∀ before s, ∀ before', Quiet other before s →
      Quiet other before' (sub pattern (o :: mark) 0 before s) := by
  refine sub_induction (o :: mark) hpos ?_ ?_ ?_
  · exact fun before before' _ => trivial
  · intro before c s hmatch hsub ih before' hquiet
    rw [hsub]
    refine ⟨?_, ih (some c) hquiet.2⟩
    rw [matchAt_eq_none, ← hsub]
    intro w rest hs hw
    obtain ⟨t, ht, -⟩ := sub_untouched hs (hw.not_mem hreject)
    exact matchAt_eq_none.1 hquiet.1 w t ht (hw.of_plain hplain)
  · intro before c w rest hw hsub ih before' hquiet
    rw [hsub]
    exact quiet_mark hsilent (ih _ hquiet.drop)

theorem lastOr_of_ne_nil {before before' : Option α} {w : List α} (h : w ≠ []) :
    lastOr before w = lastOr before' w := by
  rw [lastOr, lastOr, List.getLast?_eq_some_getLast h]
  rfl

/-- An edge in front of what a substitution leaves was one in front of the text, unless a mark
begins there; and then there was one as well. -/
theorem atEdge_of_sub {word : α → Bool} {core : Pattern α} {o : α} {before : Option α}
    {t : List α} (h : atEdge word before
      (sub (fenced word core) (o :: mark) 0 before t).head? = true) :
    atEdge word before t.head? = true := by
  cases t with
  | nil => exact h
  | cons d t =>
    cases hmatch : matchAt (fenced word core) before (d :: t) with
    | none =>
      rw [sub_keep hmatch] at h
      exact h
    | some n =>
      obtain ⟨w, rest, hs, -, hw⟩ := matchAt_spells hmatch
      rw [hs]
      exact (spells_fenced.1 hw).1

/-- **A fenced pattern is quiet** after its own substitutions. Where one of its texts stood there
were edges, and beside the mark there are some, so that no edge comes or goes. -/
theorem quiet_sub {word : α → Bool} {core : Pattern α} {o l : α} (hpos : 0 < least core)
    (hplain : Plain core) (hreject : Rejects core o) (hlast : word l = false)
    (hsilent : Silent (fenced word core) (o :: (mark ++ [l]))) :
    ∀ before s, ∀ before', before' = before ∨
        before'.any word = false ∧ atEdge word before s.head? = true →
      Quiet (fenced word core) before' (sub (fenced word core) (o :: (mark ++ [l])) 0 before s) := by
  refine sub_induction (o :: (mark ++ [l])) (hpos.trans_eq (least_fenced word core).symm) ?_ ?_ ?_
  · exact fun before before' _ => trivial
  · intro before c s hmatch hsub ih before' hbefore
    rw [hsub]
    refine ⟨?_, ih (some c) (.inl rfl)⟩
    rw [matchAt_eq_none, ← hsub]
    intro w rest hs hw
    obtain ⟨hfirst, hcore, hend⟩ := spells_fenced.1 hw
    have hne : w ≠ [] := List.ne_nil_of_length_pos (hpos.trans_le hcore.least_le)
    obtain ⟨t, ht, rfl⟩ := sub_untouched hs (hcore.not_mem hreject)
    refine matchAt_eq_none.1 hmatch w t ht (spells_fenced.2 ⟨?_, hcore.of_plain hplain, ?_⟩)
    · rw [← hs, hsub] at hfirst
      rw [← ht]
      rcases hbefore with rfl | ⟨-, hedge⟩
      · exact hfirst
      · exact hedge
    · rw [lastOr_of_ne_nil hne] at hend
      exact atEdge_of_sub hend
  · intro before c w rest hw hsub ih before' _
    rw [hsub]
    refine quiet_mark hsilent (ih _ (.inr ⟨?_, (spells_fenced.1 hw).2.2⟩))
    rw [← List.cons_append, lastOr_append]
    simpa using hlast

end

end Pattern

end TradeStation.Foundations
