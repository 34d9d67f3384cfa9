import TradeStation.Foundations.Coroutine

/-!
# Gathered tasks

Several coroutines that are performed at the same time: each performs its own operations in its own
order, and the order between them is open. `Shuffled` is how their traces mix, and `Gather` what may
come of two of them together: the results of both, or an exception of one, which does not stop the
other.
-/

namespace TradeStation.Foundations

/-- The third list mixes the first two, and keeps the order of each. -/
inductive Shuffled {ε : Type} : List ε → List ε → List ε → Prop
  | nil : Shuffled [] [] []
  | left (x : ε) {xs ys zs : List ε} (h : Shuffled xs ys zs) : Shuffled (x :: xs) ys (x :: zs)
  | right (y : ε) {xs ys zs : List ε} (h : Shuffled xs ys zs) : Shuffled xs (y :: ys) (y :: zs)

theorem Shuffled.mem_or {ε : Type} {xs ys zs : List ε} (h : Shuffled xs ys zs) {z : ε}
    (hz : z ∈ zs) : z ∈ xs ∨ z ∈ ys := by
  induction h with
  | nil => cases hz
  | left x h ih =>
    rcases List.mem_cons.1 hz with rfl | hz
    · exact .inl List.mem_cons_self
    · exact (ih hz).imp_left (List.mem_cons_of_mem x)
  | right y h ih =>
    rcases List.mem_cons.1 hz with rfl | hz
    · exact .inr List.mem_cons_self
    · exact (ih hz).imp_right (List.mem_cons_of_mem y)

section
variable {O : Type} {A : O → Type} {E α β : Type}

/-- How two gathered tasks end. -/
def GatherEnd : Except E α → Except E β → Except E (α × β) → Prop
  | .ok a, .ok b, r => r = .ok (a, b)
  | .error e, .ok _, r => r = .error e
  | .ok _, .error e, r => r = .error e
  | .error e, .error e', r => r = .error e ∨ r = .error e'

/-- What may come of two tasks that are gathered. -/
def Gather (P : Trace O A → Except E α → Prop) (Q : Trace O A → Except E β → Prop)
    (tr : Trace O A) (r : Except E (α × β)) : Prop :=
  ∃ tr₁ r₁ tr₂ r₂, P tr₁ r₁ ∧ Q tr₂ r₂ ∧ Shuffled tr₁ tr₂ tr ∧ GatherEnd r₁ r₂ r

/-- **What both tasks respect, they respect together.** -/
theorem Gather.forall_mem {P : Trace O A → Except E α → Prop} {Q : Trace O A → Except E β → Prop}
    {tr : Trace O A} {r : Except E (α × β)} (h : Gather P Q tr r) {R : Event O A → Prop}
    (hP : ∀ tr r, P tr r → ∀ event ∈ tr, R event) (hQ : ∀ tr r, Q tr r → ∀ event ∈ tr, R event) :
    ∀ event ∈ tr, R event := by
  obtain ⟨tr₁, r₁, tr₂, r₂, hp, hq, hmix, -⟩ := h
  intro event hevent
  rcases hmix.mem_or hevent with hevent | hevent
  · exact hP tr₁ r₁ hp event hevent
  · exact hQ tr₂ r₂ hq event hevent

/-- Two tasks that raise at once. -/
theorem Gather.raised {P : Trace O A → Except E α → Prop} {Q : Trace O A → Except E β → Prop}
    {tr : Trace O A} {r : Except E (α × β)} (h : Gather P Q tr r)
    (hP : ∀ tr r, P tr r → tr = [] ∧ ∃ e, r = .error e)
    (hQ : ∀ tr r, Q tr r → tr = [] ∧ ∃ e, r = .error e) : tr = [] ∧ ∃ e, r = .error e := by
  obtain ⟨tr₁, r₁, tr₂, r₂, hp, hq, hmix, hend⟩ := h
  obtain ⟨rfl, e, rfl⟩ := hP tr₁ r₁ hp
  obtain ⟨rfl, e', rfl⟩ := hQ tr₂ r₂ hq
  cases hmix
  exact ⟨rfl, hend.elim (fun h => ⟨e, h⟩) fun h => ⟨e', h⟩⟩

end

end TradeStation.Foundations
