import Mathlib.Data.Nat.Notation
import Mathlib.Tactic.Common

/-!
# Labelled transitions

A path is a sequence of labelled steps of a relation `step : S → L → S → Prop`.

* `Path.invariant`: what holds at the start and is kept by every step holds at the end.
  `Path.refine`: a step may be taken in another relation wherever an invariant holds.
* `path_append`: a path along two lists of labels is a path along each, through a state between.
* `Path.account`: if no step raises a measure of the state by more than its label pays for, no path
  does. It bounds how often a label occurs by what the states can hold. `Path.balance` is the same
  with equality, and `Path.accountMul` is for labels that pay for more than one unit.
-/

namespace TradeStation.Foundations

/-- A sequence of steps, with their labels. -/
inductive Path {S L : Type*} (step : S → L → S → Prop) : S → List L → S → Prop
  | nil (s : S) : Path step s [] s
  | cons {s s' s'' : S} {l : L} {ls : List L} (head : step s l s') (tail : Path step s' ls s'') :
    Path step s (l :: ls) s''

namespace Path

variable {S L : Type*} {step : S → L → S → Prop} {s s' s'' : S} {l : L} {ls ls' : List L}

theorem single (h : step s l s') : Path step s [l] s' := .cons h (.nil s')

theorem append (h : Path step s ls s') (h' : Path step s' ls' s'') :
    Path step s (ls ++ ls') s'' := by
  induction h with
  | nil => exact h'
  | cons head _ ih => exact .cons head (ih h')

/-- **The invariant rule.** -/
theorem invariant {I : S → Prop} (h : Path step s ls s') (allowed : L → Prop)
    (hls : ∀ l ∈ ls, allowed l) (hstep : ∀ {s l s'}, step s l s' → allowed l → I s → I s')
    (hs : I s) : I s' := by
  induction h with
  | nil => exact hs
  | cons head _ ih =>
    have hl := hls _ List.mem_cons_self
    exact ih (fun l hl' => hls l (List.mem_cons_of_mem _ hl')) (hstep head hl hs)

/-- **The refinement rule.** A path is one of another relation whose steps it takes wherever an
invariant holds. -/
theorem refine {step' : S → L → S → Prop} {I : S → Prop} (h : Path step s ls s')
    (allowed : L → Prop) (hls : ∀ l ∈ ls, allowed l)
    (hstep : ∀ {s l s'}, step s l s' → allowed l → I s → step' s l s' ∧ I s') (hs : I s) :
    Path step' s ls s' := by
  induction h with
  | nil => exact .nil _
  | cons head _ ih =>
    obtain ⟨hhead, hs'⟩ := hstep head (hls _ List.mem_cons_self) hs
    exact .cons hhead (ih (fun l hl => hls l (List.mem_cons_of_mem _ hl)) hs')

/-- The accounting rule where a label of `gains` may raise the measure by `k`. -/
theorem accountMul (h : Path step s ls s') (allowed : L → Prop) (measure : S → ℕ)
    (gains costs : L → Bool) (k : ℕ) (hls : ∀ l ∈ ls, allowed l)
    (hstep : ∀ {s l s'}, step s l s' → allowed l →
      measure s' + (if costs l then 1 else 0) ≤ measure s + if gains l then k else 0) :
    measure s' + ls.countP costs ≤ measure s + k * ls.countP gains := by
  induction h with
  | nil => exact Nat.le_refl _
  | @cons _ _ _ l ls head tail ih =>
    have hhead := hstep head (hls _ List.mem_cons_self)
    have htail := ih fun l hl => hls l (List.mem_cons_of_mem _ hl)
    have hgain : k * (if gains l then 1 else 0) = if gains l then k else 0 := by
      split_ifs
      · exact Nat.mul_one k
      · exact Nat.mul_zero k
    rw [List.countP_cons, List.countP_cons, Nat.mul_add, hgain]
    omega

/-- **The accounting rule.** A label of `gains` may raise the measure by one, and a label of `costs`
uses up one of it; what a step leaves is no more than that, and so it is for a path. -/
theorem account (h : Path step s ls s') (allowed : L → Prop) (measure : S → ℕ)
    (gains costs : L → Bool) (hls : ∀ l ∈ ls, allowed l)
    (hstep : ∀ {s l s'}, step s l s' → allowed l →
      measure s' + (if costs l then 1 else 0) ≤ measure s + if gains l then 1 else 0) :
    measure s' + ls.countP costs ≤ measure s + ls.countP gains := by
  have hmul := h.accountMul allowed measure gains costs 1 hls hstep
  rwa [Nat.one_mul] at hmul

/-- The accounting rule where the books are exact. -/
theorem balance (h : Path step s ls s') (allowed : L → Prop) (measure : S → ℕ)
    (gains costs : L → Bool) (hls : ∀ l ∈ ls, allowed l)
    (hstep : ∀ {s l s'}, step s l s' → allowed l →
      measure s' + (if costs l then 1 else 0) = measure s + if gains l then 1 else 0) :
    measure s' + ls.countP costs = measure s + ls.countP gains := by
  induction h with
  | nil => rfl
  | cons head tail ih =>
    have hhead := hstep head (hls _ List.mem_cons_self)
    have htail := ih fun l hl => hls l (List.mem_cons_of_mem _ hl)
    rw [List.countP_cons, List.countP_cons]
    omega

end Path

variable {S L : Type*} {step : S → L → S → Prop} {s s'' : S} {l : L} {ls ls' : List L}

theorem path_cons : Path step s (l :: ls) s'' ↔ ∃ s', step s l s' ∧ Path step s' ls s'' := by
  constructor
  · rintro (_ | ⟨head, tail⟩)
    exact ⟨_, head, tail⟩
  · rintro ⟨s', head, tail⟩
    exact .cons head tail

theorem path_append :
    Path step s (ls ++ ls') s'' ↔ ∃ s', Path step s ls s' ∧ Path step s' ls' s'' := by
  constructor
  · intro h
    induction ls generalizing s with
    | nil => exact ⟨s, .nil s, h⟩
    | cons l ls ih =>
      obtain ⟨s₁, head, tail⟩ := path_cons.1 h
      obtain ⟨s', h₁, h₂⟩ := ih tail
      exact ⟨s', .cons head h₁, h₂⟩
  · rintro ⟨s', h₁, h₂⟩
    exact h₁.append h₂

end TradeStation.Foundations
