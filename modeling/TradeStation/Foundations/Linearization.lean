import Mathlib.Data.List.Basic
import TradeStation.Foundations.Pool

/-!
# Operations that take time

The operations of an object take many steps, between which other callers take theirs. What shows of it
are the moments at which an operation is called and at which it returns or raises.

* `Simulates`: every step of one relation is matched by a path of another with the same to show;
  `Simulates.path` says it of paths.
* `Atomic` is the object whose operations take effect in one step between call and return. An object
  is linearizable if it is simulated by it.
* `Clients`: coroutines that call the operations of an object, and perform others directly.
  `Clients.linearize`: where the object is linearizable, each of their runs is one of a pool that
  performs the operations of the object in one step, with the same answers to every coroutine.
-/

namespace TradeStation.Foundations

/-! ## Simulations -/

section
variable {S S' L L' E : Type*}

/-- Every step is matched by a path of the other relation that shows the same. -/
def Simulates (step : S → L → S → Prop) (shows : L → Option E) (step' : S' → L' → S' → Prop)
    (shows' : L' → Option E) (R : S → S' → Prop) : Prop :=
  ∀ ⦃s l s₁ t⦄, step s l s₁ → R s t →
    ∃ ls t₁, Path step' t ls t₁ ∧ ls.filterMap shows' = (shows l).toList ∧ R s₁ t₁

variable {step : S → L → S → Prop} {shows : L → Option E} {step' : S' → L' → S' → Prop}
  {shows' : L' → Option E} {R : S → S' → Prop}

/-- **Every path is matched by one that shows the same.** -/
theorem Simulates.path (hsim : Simulates step shows step' shows' R) {s s₁ : S} {t : S'}
    {ls : List L} (h : Path step s ls s₁) (hR : R s t) :
    ∃ ls' t₁, Path step' t ls' t₁ ∧ ls'.filterMap shows' = ls.filterMap shows ∧ R s₁ t₁ := by
  induction h generalizing t with
  | nil => exact ⟨[], t, .nil t, rfl, hR⟩
  | @cons s s₁ s₂ l ls head tail ih =>
    obtain ⟨ls₁, t₁, hfirst, hshows₁, hR₁⟩ := hsim head hR
    obtain ⟨ls₂, t₂, hrest, hshows₂, hR₂⟩ := ih hR₁
    refine ⟨ls₁ ++ ls₂, t₂, hfirst.append hrest, ?_, hR₂⟩
    rw [List.filterMap_append, hshows₁, hshows₂]
    cases hl : shows l <;> simp [hl]

end

/-! ## Objects -/

/-- What shows of an object. -/
inductive Interaction (I O : Type) (A : O → Type)
  | calls (i : I) (op : O)
  | returns (i : I) (op : O) (x : A op)
  | raises (i : I) (op : O)

/-- Where a caller is with its operation. One that fails may have had its effect before. -/
inductive Status (O : Type) (A : O → Type)
  | idle
  | called (op : O)
  | answered (op : O) (x : A op)
  | failed (op : O) (effect : Option (A op))

/-- An object whose operations take effect in one step. -/
structure Atomic (S I O : Type) (A : O → Type) where
  shared : S
  status : I → Status O A

namespace Atomic

variable {S I O : Type} {A : O → Type} [DecidableEq I]

/-- The caller goes on. -/
def turn (s : Atomic S I O A) (i : I) (status : Status O A) : Atomic S I O A :=
  { s with status := Function.update s.status i status }

/-- An operation is called, takes effect or fails, and ends. -/
inductive Step (perform : I → S → (op : O) → A op → S → Prop) :
    Atomic S I O A → Option (Interaction I O A) → Atomic S I O A → Prop
  | calls {s} (i : I) (op : O) (h : s.status i = .idle) :
    Step perform s (some (.calls i op)) (s.turn i (.called op))
  | performs {s shared} (i : I) {op : O} (x : A op) (h : s.status i = .called op)
    (hperform : perform i s.shared op x shared) :
    Step perform s none { s.turn i (.answered op x) with shared }
  | fails {s} (i : I) {op : O} (h : s.status i = .called op) :
    Step perform s none (s.turn i (.failed op none))
  | failsBehind {s} (i : I) {op : O} {x : A op} (h : s.status i = .answered op x) :
    Step perform s none (s.turn i (.failed op (some x)))
  | returns {s} (i : I) {op : O} (x : A op) (h : s.status i = .answered op x) :
    Step perform s (some (.returns i op x)) (s.turn i .idle)
  | raises {s} (i : I) {op : O} {effect : Option (A op)} (h : s.status i = .failed op effect) :
    Step perform s (some (.raises i op)) (s.turn i .idle)

/-- All callers are idle. -/
def quiet (shared : S) : Atomic S I O A := ⟨shared, fun _ => .idle⟩

end Atomic

/-! ## Clients -/

/-- Coroutines, the object whose operations they call, and what else they share. -/
structure Clients (C W I O : Type) (A : O → Type) (E α : Type) where
  object : C
  shared : W
  task : I → Coro O A E α

namespace Clients

variable {C W I O : Type} {A : O → Type} {E α : Type} {L : Type}

section
variable [DecidableEq I]

/-- A step of the object, or an operation that is none of the object's. The runs are those in which no
operation of the object raises. -/
inductive Step (isObject : O → Prop) (step : C → L → C → Prop)
    (shows : L → Option (Interaction I O A)) (perform : I → W → (op : O) → A op → W → Prop)
    (drift : W → W → Prop) :
    Clients C W I O A E α → L ⊕ Pool.Label I O A → Clients C W I O A E α → Prop
  | inner {s c l} (h : step s.object l c) (hl : shows l = none) :
    Step isObject step shows perform drift s (.inl l) { s with object := c }
  | calls {s c l} (i : I) {op : O} {k : A op → Coro O A E α} (htask : s.task i = .await op k)
    (hop : isObject op) (h : step s.object l c) (hl : shows l = some (.calls i op)) :
    Step isObject step shows perform drift s (.inl l) { s with object := c }
  | returns {s c l} (i : I) {op : O} {k : A op → Coro O A E α} (x : A op)
    (htask : s.task i = .await op k) (h : step s.object l c)
    (hl : shows l = some (.returns i op x)) :
    Step isObject step shows perform drift s (.inl l)
      ⟨c, s.shared, Function.update s.task i (k x)⟩
  | perform {s w} (i : I) {op : O} {k : A op → Coro O A E α} (x : A op)
    (htask : s.task i = .await op k) (hop : ¬isObject op) (h : perform i s.shared op x w) :
    Step isObject step shows perform drift s (.inr (some (i, ⟨op, x⟩)))
      ⟨s.object, w, Function.update s.task i (k x)⟩
  | drift {s w} (h : drift s.shared w) :
    Step isObject step shows perform drift s (.inr none) { s with shared := w }

end

/-- The event that a label is to the coroutines. -/
def told (shows : L → Option (Interaction I O A)) : L ⊕ Pool.Label I O A → Pool.Label I O A
  | .inr label => label
  | .inl l =>
    match shows l with
    | some (.returns i op x) => some (i, ⟨op, x⟩)
    | _ => none

section
variable {shows : L → Option (Interaction I O A)} {l : L}

theorem told_none (hl : shows l = none) : told shows (.inl l) = none := by
  simp [told, hl]

theorem told_calls {i : I} {op : O} (hl : shows l = some (.calls i op)) :
    told shows (.inl l) = none := by
  simp [told, hl]

theorem told_returns {i : I} {op : O} {x : A op} (hl : shows l = some (.returns i op x)) :
    told shows (.inl l) = some (i, ⟨op, x⟩) := by
  simp [told, hl]

end

/-! ### Runs of a pool -/

/-- What an operation that has taken effect is still to answer. -/
def owed : Status O A → Trace O A
  | .answered op x | .failed op (some x) => [⟨op, x⟩]
  | _ => []

/-- In the pool a coroutine is as far as the effects of its operations. -/
inductive Linked (isObject : O → Prop) : Status O A → Coro O A E α → Coro O A E α → Prop
  | idle (p : Coro O A E α) : Linked isObject .idle p p
  | called {op : O} (k : A op → Coro O A E α) (hop : isObject op) :
    Linked isObject (.called op) (.await op k) (.await op k)
  | answered {op : O} (k : A op → Coro O A E α) (x : A op) (hop : isObject op) :
    Linked isObject (.answered op x) (.await op k) (k x)
  | failed {op : O} (k : A op → Coro O A E α) (hop : isObject op) :
    Linked isObject (.failed op none) (.await op k) (.await op k)
  | failedBehind {op : O} (k : A op → Coro O A E α) (x : A op) (hop : isObject op) :
    Linked isObject (.failed op (some x)) (.await op k) (k x)

section
variable {X S : Type} [DecidableEq I] (isObject : O → Prop)
  (performObject : I → X → (op : O) → A op → X → Prop)
  (perform : I → W → (op : O) → A op → W → Prop) (drift : W → W → Prop) (put : X → W → S)
  (performAll : I → S → (op : O) → A op → S → Prop) (driftAll : S → S → Prop)

/-- A pool may do in one step what the object does and what the coroutines do directly. -/
structure Shares : Prop where
  object : ∀ {i x op a x'} (w : W), performObject i x op a x' →
    performAll i (put x w) op a (put x' w)
  direct : ∀ {i w op a w'} (x : X), perform i w op a w' → performAll i (put x w) op a (put x w')
  drift : ∀ {w w'} (x : X), drift w w' → driftAll (put x w) (put x w')

/-- The pool that clients of an object with atomic operations stand for. -/
structure Matched (s : Clients (Atomic X I O A) W I O A E α) (p : Pool S I O A E α) : Prop where
  shared : p.shared = put s.object.shared s.shared
  task : ∀ i, Linked isObject (s.object.status i) (s.task i) (p.task i)

/-- The pool goes along with the clients, and every coroutine is told what it is owed. -/
def Moves (s : Clients (Atomic X I O A) W I O A E α) (log : List (Pool.Label I O A))
    (s₁ : Clients (Atomic X I O A) W I O A E α) : Prop :=
  ∀ p, Matched isObject put s p → ∃ log' p₁,
    Path (Pool.Step performAll driftAll) p log' p₁ ∧ Matched isObject put s₁ p₁ ∧
      ∀ i, owed (s.object.status i) ++ Pool.eventsOf i log' =
        Pool.eventsOf i log ++ owed (s₁.object.status i)

variable {isObject performObject perform drift put performAll driftAll}
  {s s₁ s₂ : Clients (Atomic X I O A) W I O A E α} {log log₁ log₂ : List (Pool.Label I O A)}

/-- Nothing happens in the pool. -/
theorem Moves.still (hshared : put s₁.object.shared s₁.shared = put s.object.shared s.shared)
    (htask : ∀ i p, Linked isObject (s.object.status i) (s.task i) p →
      Linked isObject (s₁.object.status i) (s₁.task i) p)
    (howed : ∀ i, owed (s.object.status i) =
      Pool.eventsOf i log ++ owed (s₁.object.status i)) :
    Moves isObject put performAll driftAll s log s₁ := by
  intro p hp
  refine ⟨[], p, .nil p, ⟨hp.shared.trans hshared.symm, fun i => htask i _ (hp.task i)⟩, ?_⟩
  intro i
  rw [Pool.eventsOf_nil, List.append_nil]
  exact howed i

theorem Moves.trans (h₁ : Moves isObject put performAll driftAll s log₁ s₁)
    (h₂ : Moves isObject put performAll driftAll s₁ log₂ s₂) :
    Moves isObject put performAll driftAll s (log₁ ++ log₂) s₂ := by
  intro p hp
  obtain ⟨log₁', p₁, hpath₁, hp₁, howed₁⟩ := h₁ p hp
  obtain ⟨log₂', p₂, hpath₂, hp₂, howed₂⟩ := h₂ p₁ hp₁
  refine ⟨log₁' ++ log₂', p₂, hpath₁.append hpath₂, hp₂, fun i => ?_⟩
  rw [Pool.eventsOf_append, Pool.eventsOf_append, ← List.append_assoc, howed₁, List.append_assoc,
    howed₂, ← List.append_assoc]

/-- A caller goes on, and the others stay. -/
theorem linked_turn {status : Status O A} {i : I} {task : I → Coro O A E α} {q : Coro O A E α}
    {p : Pool S I O A E α} (t : Atomic X I O A)
    (hothers : ∀ j, j ≠ i → Linked isObject (t.status j) (task j) (p.task j))
    (hi : Linked isObject status q (p.task i)) (j : I) :
    Linked isObject ((t.turn i status).status j) (Function.update task i q j) (p.task j) := by
  by_cases hj : j = i
  · subst hj
    simpa [Atomic.turn] using hi
  · simpa [Atomic.turn, Function.update_of_ne hj] using hothers j hj

/-- Where a caller has called an operation, its coroutine awaits it, in the pool as well. -/
theorem linked_called {op : O} {q q' : Coro O A E α} (h : Linked isObject (.called op) q q') :
    ∃ k, isObject op ∧ q = .await op k ∧ q' = .await op k := by
  cases h with
  | called k hop => exact ⟨k, hop, rfl, rfl⟩

/-- Where an operation has taken effect, the pool is one answer ahead. -/
theorem linked_answered {op : O} {x : A op} {q q' : Coro O A E α}
    (h : Linked isObject (.answered op x) q q') :
    ∃ k, isObject op ∧ q = .await op k ∧ q' = k x := by
  cases h with
  | answered k _ hop => exact ⟨k, hop, rfl, rfl⟩

/-- The status of one caller after a turn, and that of another. -/
theorem owed_turn (t : Atomic X I O A) {i : I} {status : Status O A}
    {log log' : List (Pool.Label I O A)}
    (hi : owed (t.status i) ++ Pool.eventsOf i log' = Pool.eventsOf i log ++ owed status)
    (hothers : ∀ j, j ≠ i → Pool.eventsOf j log' = [] ∧ Pool.eventsOf j log = []) (j : I) :
    owed (t.status j) ++ Pool.eventsOf j log' =
      Pool.eventsOf j log ++ owed ((t.turn i status).status j) := by
  by_cases hj : j = i
  · subst hj
    simpa [Atomic.turn] using hi
  · obtain ⟨hlog', hlog⟩ := hothers j hj
    rw [hlog', hlog]
    simp [Atomic.turn, Function.update_of_ne hj]

theorem eventsOf_single_other {i j : I} (h : j ≠ i) (event : Event O A) :
    Pool.eventsOf j [some (i, event)] = [] := by
  rw [Pool.eventsOf_other (Ne.symm h)]
  rfl

/-- A turn of one caller that the pool does not take part in. -/
theorem moves_turn {i : I} {status : Status O A} {q : Coro O A E α}
    (hlinked : ∀ p, Linked isObject (s.object.status i) (s.task i) p → Linked isObject status q p)
    (howed : owed (s.object.status i) = Pool.eventsOf i log ++ owed status)
    (hothers : ∀ j, j ≠ i → Pool.eventsOf j log = []) :
    Moves isObject put performAll driftAll s log
      ⟨s.object.turn i status, s.shared, Function.update s.task i q⟩ := by
  intro p hp
  refine ⟨[], p, .nil p, ⟨hp.shared, fun j => ?_⟩, fun j => ?_⟩
  · exact linked_turn s.object (fun j _ => hp.task j) (hlinked _ (hp.task i)) j
  · refine owed_turn s.object ?_ (fun j hj => ⟨rfl, hothers j hj⟩) j
    rw [Pool.eventsOf_nil, List.append_nil]
    exact howed

/-- The same where the coroutine stays where it is. -/
theorem moves_status {i : I} {status : Status O A}
    (hlinked : ∀ p, Linked isObject (s.object.status i) (s.task i) p →
      Linked isObject status (s.task i) p)
    (howed : owed (s.object.status i) = owed status) :
    Moves isObject put performAll driftAll s [] { s with object := s.object.turn i status } := by
  have hmoves : Moves isObject put performAll driftAll s []
      ⟨s.object.turn i status, s.shared, Function.update s.task i (s.task i)⟩ :=
    moves_turn hlinked howed fun _ _ => rfl
  rwa [Function.update_eq_self] at hmoves

/-- A step of the object that does not show. -/
theorem moves_inner (hshares : Shares performObject perform drift put performAll driftAll)
    {c : Atomic X I O A} (h : Atomic.Step performObject s.object none c) :
    Moves isObject put performAll driftAll s [] { s with object := c } := by
  cases h with
  | fails i h =>
    apply moves_status
    · rw [h]
      intro p hp
      obtain ⟨k, hop, hq, rfl⟩ := linked_called hp
      rw [hq]
      exact .failed k hop
    · rw [h]
      rfl
  | @failsBehind i op x h =>
    apply moves_status
    · rw [h]
      intro p hp
      obtain ⟨k, hop, hq, rfl⟩ := linked_answered hp
      rw [hq]
      exact .failedBehind k x hop
    · rw [h]
      rfl
  | @performs shared i op x h hperform =>
    intro p hp
    have hlinked := hp.task i
    rw [h] at hlinked
    obtain ⟨k, hop, hq, hq'⟩ := linked_called hlinked
    have hstep : Pool.Step performAll driftAll p (some (i, ⟨op, x⟩))
        ⟨put shared s.shared, Function.update p.task i (k x)⟩ := by
      refine .perform i x hq' ?_
      rw [hp.shared]
      exact hshares.object s.shared hperform
    refine ⟨_, _, .single hstep, ⟨rfl, fun j => ?_⟩, fun j => ?_⟩
    · by_cases hj : j = i
      · subst hj
        have hanswered : Linked isObject (.answered op x) (s.task j) (k x) := by
          rw [hq]
          exact .answered k x hop
        simpa [Atomic.turn] using hanswered
      · simpa [Atomic.turn, Function.update_of_ne hj] using hp.task j
    · refine owed_turn s.object ?_ (fun j hj => ⟨eventsOf_single_other hj _, rfl⟩) j
      rw [h]
      simp [owed]

/-- Steps of the object that do not show. -/
theorem moves_quiet (hshares : Shares performObject perform drift put performAll driftAll)
    {t c : Atomic X I O A} {w : W} {task : I → Coro O A E α}
    {ls : List (Option (Interaction I O A))} (h : Path (Atomic.Step performObject) t ls c)
    (hls : ls.filterMap id = []) :
    Moves isObject put performAll driftAll ⟨t, w, task⟩ [] ⟨c, w, task⟩ := by
  induction h with
  | nil => exact .still rfl (fun _ _ hp => hp) fun _ => rfl
  | @cons t t₁ c l ls head tail ih =>
    cases l with
    | some shown => simp at hls
    | none =>
      have hfirst : Moves isObject put performAll driftAll ⟨t, w, task⟩ [] ⟨t₁, w, task⟩ :=
        moves_inner (s := ⟨t, w, task⟩) hshares head
      exact hfirst.trans (ih (by simpa using hls))

/-- An operation is called. -/
theorem moves_calls {i : I} {op : O} {k : A op → Coro O A E α} (htask : s.task i = .await op k)
    (hop : isObject op) (hidle : s.object.status i = .idle) :
    Moves isObject put performAll driftAll s []
      { s with object := s.object.turn i (.called op) } := by
  apply moves_status
  · rw [hidle, htask]
    rintro p ⟨⟩
    exact .called k hop
  · rw [hidle]
    rfl

/-- An operation returns. -/
theorem moves_returns {i : I} {op : O} {k : A op → Coro O A E α} {x : A op}
    (htask : s.task i = .await op k) (hanswered : s.object.status i = .answered op x) :
    Moves isObject put performAll driftAll s [some (i, ⟨op, x⟩)]
      ⟨s.object.turn i .idle, s.shared, Function.update s.task i (k x)⟩ := by
  refine moves_turn ?_ ?_ fun j hj => eventsOf_single_other hj _
  · rw [hanswered, htask]
    intro p hp
    obtain ⟨k', -, hk, rfl⟩ := linked_answered hp
    cases hk
    exact .idle _
  · rw [hanswered]
    simp [owed]

/-- An operation that is none of the object's. -/
theorem moves_perform (hshares : Shares performObject perform drift put performAll driftAll)
    {i : I} {op : O} {k : A op → Coro O A E α} {x : A op} {w : W}
    (htask : s.task i = .await op k) (hop : ¬isObject op) (h : perform i s.shared op x w) :
    Moves isObject put performAll driftAll s [some (i, ⟨op, x⟩)]
      ⟨s.object, w, Function.update s.task i (k x)⟩ := by
  intro p hp
  have hidle : s.object.status i = .idle ∧ p.task i = .await op k := by
    have hlinked := hp.task i
    rw [htask] at hlinked
    generalize s.object.status i = status at hlinked
    generalize p.task i = q at hlinked
    cases hlinked with
    | idle => exact ⟨rfl, rfl⟩
    | called _ hop' | answered _ _ hop' | failed _ hop' | failedBehind _ _ hop' =>
      exact absurd hop' hop
  have hstep : Pool.Step performAll driftAll p (some (i, ⟨op, x⟩))
      ⟨put s.object.shared w, Function.update p.task i (k x)⟩ := by
    refine .perform i x hidle.2 ?_
    rw [hp.shared]
    exact hshares.direct s.object.shared h
  refine ⟨_, _, .single hstep, ⟨rfl, fun j => ?_⟩, fun j => ?_⟩
  · by_cases hj : j = i
    · subst hj
      have hsame : Linked isObject (s.object.status j) (k x) (k x) := by
        rw [hidle.1]
        exact .idle _
      simpa using hsame
    · simpa [Function.update_of_ne hj] using hp.task j
  · by_cases hj : j = i
    · subst hj
      rw [hidle.1]
      simp [owed]
    · simp [eventsOf_single_other hj]

theorem moves_drift (hshares : Shares performObject perform drift put performAll driftAll) {w : W}
    (h : drift s.shared w) :
    Moves isObject put performAll driftAll s [none] { s with shared := w } := by
  intro p hp
  have hstep : Pool.Step performAll driftAll p none ⟨put s.object.shared w, p.task⟩ := by
    refine .drift ?_
    rw [hp.shared]
    exact hshares.drift s.object.shared h
  exact ⟨_, _, .single hstep, ⟨rfl, hp.task⟩, fun i => by simp⟩

variable {C L : Type} {step : C → L → C → Prop} {shows : L → Option (Interaction I O A)}
  {R : C → Atomic X I O A → Prop}

/-- The step of an object that shows something, between steps of its atomic counterpart that do
not. -/
theorem exists_shown {t t₁ : Atomic X I O A} {ls : List (Option (Interaction I O A))}
    {shown : Interaction I O A} (h : Path (Atomic.Step performObject) t ls t₁)
    (hls : ls.filterMap id = [shown]) :
    ∃ ls₁ ls₂ u u₁, Path (Atomic.Step performObject) t ls₁ u ∧
      Atomic.Step performObject u (some shown) u₁ ∧ Path (Atomic.Step performObject) u₁ ls₂ t₁ ∧
        ls₁.filterMap id = [] ∧ ls₂.filterMap id = [] := by
  obtain ⟨ls₁, label, ls₂, rfl, hls₁, hlabel, hls₂⟩ := List.filterMap_eq_cons_iff.1 hls
  obtain rfl : label = some shown := hlabel
  obtain ⟨u, hfirst, hrest⟩ := path_append.1 h
  obtain ⟨u₁, hshown, hlast⟩ := path_cons.1 hrest
  exact ⟨ls₁, ls₂, u, u₁, hfirst, hshown, hlast, List.filterMap_eq_nil_iff.2 hls₁, hls₂⟩

/-- **A step of clients of a linearizable object.** -/
theorem moves_step (hshares : Shares performObject perform drift put performAll driftAll)
    (hsim : Simulates step shows (Atomic.Step performObject) id R)
    {s s₁ : Clients C W I O A E α} {l : L ⊕ Pool.Label I O A} {t : Atomic X I O A}
    (h : Step isObject step shows perform drift s l s₁) (hR : R s.object t) :
    ∃ t₁, R s₁.object t₁ ∧ Moves isObject put performAll driftAll ⟨t, s.shared, s.task⟩
      [told shows l] ⟨t₁, s₁.shared, s₁.task⟩ := by
  -- what does not show goes without an event
  have hblank : ∀ {a b : Clients (Atomic X I O A) W I O A E α},
      Moves isObject put performAll driftAll a [] b →
        Moves isObject put performAll driftAll a [none] b := fun hmoves => hmoves
  cases h with
  | inner h hl =>
    obtain ⟨ls, t₁, hpath, hls, hR₁⟩ := hsim h hR
    rw [hl] at hls
    refine ⟨t₁, hR₁, ?_⟩
    rw [told_none hl]
    exact hblank (moves_quiet hshares hpath hls)
  | calls i htask hop h hl =>
    obtain ⟨ls, t₁, hpath, hls, hR₁⟩ := hsim h hR
    rw [hl] at hls
    obtain ⟨ls₁, ls₂, u, u₁, hfirst, hshown, hlast, hls₁, hls₂⟩ := exists_shown hpath hls
    refine ⟨t₁, hR₁, ?_⟩
    rw [told_calls hl]
    cases hshown with
    | calls _ _ hidle =>
      have hmiddle : Moves isObject put performAll driftAll ⟨u, s.shared, s.task⟩ []
          ⟨u.turn i (.called _), s.shared, s.task⟩ :=
        moves_calls (s := ⟨u, s.shared, s.task⟩) htask hop hidle
      exact hblank (((moves_quiet hshares hfirst hls₁).trans hmiddle).trans
        (moves_quiet hshares hlast hls₂))
  | @returns c l i op k x htask h hl =>
    obtain ⟨ls, t₁, hpath, hls, hR₁⟩ := hsim h hR
    rw [hl] at hls
    obtain ⟨ls₁, ls₂, u, u₁, hfirst, hshown, hlast, hls₁, hls₂⟩ := exists_shown hpath hls
    refine ⟨t₁, hR₁, ?_⟩
    rw [told_returns hl]
    cases hshown with
    | returns _ _ hanswered =>
      have hmiddle : Moves isObject put performAll driftAll ⟨u, s.shared, s.task⟩
          [some (i, ⟨op, x⟩)] ⟨u.turn i .idle, s.shared, Function.update s.task i (k x)⟩ :=
        moves_returns (s := ⟨u, s.shared, s.task⟩) htask hanswered
      exact ((moves_quiet hshares hfirst hls₁).trans hmiddle).trans
        (moves_quiet hshares hlast hls₂)
  | perform i x htask hop h =>
    exact ⟨t, hR, moves_perform (s := ⟨t, s.shared, s.task⟩) hshares htask hop h⟩
  | drift h => exact ⟨t, hR, moves_drift (s := ⟨t, s.shared, s.task⟩) hshares h⟩

/-- **Clients of a linearizable object are a pool.** Each of their runs is one of a pool that performs
the operations of the object in one step: every coroutine gets the same answers, and in the end it
is as far, but for an operation that has taken effect and not returned yet. -/
theorem linearize (hshares : Shares performObject perform drift put performAll driftAll)
    (hsim : Simulates step shows (Atomic.Step performObject) id R)
    {s s' : Clients C W I O A E α} {log : List (L ⊕ Pool.Label I O A)} {x : X}
    (h : Path (Step isObject step shows perform drift) s log s') (hR : R s.object (.quiet x)) :
    ∃ t log' p, R s'.object t ∧
      Path (Pool.Step performAll driftAll) ⟨put x s.shared, s.task⟩ log' p ∧
      p.shared = put t.shared s'.shared ∧
      ∀ i, Linked isObject (t.status i) (s'.task i) (p.task i) ∧
        Pool.eventsOf i log' = Pool.eventsOf i (log.map (told shows)) ++ owed (t.status i) := by
  have hmoves : ∀ {s s' : Clients C W I O A E α} {log : List (L ⊕ Pool.Label I O A)}
      {t : Atomic X I O A}, Path (Step isObject step shows perform drift) s log s' →
      R s.object t → ∃ t', R s'.object t' ∧
        Moves isObject put performAll driftAll ⟨t, s.shared, s.task⟩ (log.map (told shows))
          ⟨t', s'.shared, s'.task⟩ := by
    intro s s' log t h hR
    induction h generalizing t with
    | nil => exact ⟨t, hR, .still rfl (fun _ _ hp => hp) fun _ => rfl⟩
    | cons head tail ih =>
      obtain ⟨t₁, hR₁, hfirst⟩ := moves_step hshares hsim head hR
      obtain ⟨t', hR', hrest⟩ := ih hR₁
      exact ⟨t', hR', hfirst.trans hrest⟩
  obtain ⟨t, hR', hall⟩ := hmoves h hR
  obtain ⟨log', p, hpath, hp, hevents⟩ := hall ⟨put x s.shared, s.task⟩ ⟨rfl, fun i => .idle _⟩
  exact ⟨t, log', p, hR', hpath, hp.shared, fun i => ⟨hp.task i, hevents i⟩⟩

end

end Clients

end TradeStation.Foundations
