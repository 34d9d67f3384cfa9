import Mathlib.Data.List.Basic
import Mathlib.Logic.Function.Basic
import TradeStation.Foundations.Coroutine
import TradeStation.Foundations.Transition

/-!
# Coroutines side by side

A pool is a family of coroutines with a state that they share. In a step one of them performs its next
operation, on the shared state, or the shared state drifts by itself; any order of steps is a path.

* `After p tr q`: after the events `tr`, the coroutine `p` has come to `q`.
* `Obeys Q h p`: whatever the answers, an operation is performed only behind a history that allows it.
* `after_of_path`: along a path a coroutine goes on by its own events, and by no others, so that what
  holds of the runs of one coroutine holds of it in a pool.
* `At`: a step of a path, with the states on both sides of it.
* `Machine`: the coroutine as a state machine. `machine_invariant`: an invariant of the shared state
  and of where the machines are that every event keeps is kept along a path. `Mutex` is the one of
  a lock.
-/

namespace TradeStation.Foundations

namespace Coro

variable {O : Type} {A : O → Type} {E α β : Type}

/-! ## A part of a run -/

/-- After the events of a trace, a coroutine has come to another. -/
inductive After : Coro O A E α → Trace O A → Coro O A E α → Prop
  | here (p : Coro O A E α) : After p [] p
  | next {op : O} {k : A op → Coro O A E α} {x : A op} {tr : Trace O A} {q : Coro O A E α}
      (h : After (k x) tr q) : After (.await op k) (⟨op, x⟩ :: tr) q

section
variable {p q : Coro O A E α} {tr : Trace O A} {op : O} {k : A op → Coro O A E α}

theorem After.snoc (h : After p tr (.await op k)) (x : A op) :
    After p (tr ++ [⟨op, x⟩]) (k x) := by
  generalize hq : Coro.await op k = q at h
  induction h with
  | here p =>
    subst hq
    exact .next (.here _)
  | next _ ih => exact .next (ih hq)

theorem After.runs_ret {a : α} (h : After p tr (.ret a)) : Runs p tr (.ok a) := by
  generalize hq : Coro.ret a = q at h
  induction h with
  | here p =>
    subst hq
    exact ⟨rfl, rfl⟩
  | next _ ih => exact ⟨_, _, rfl, ih hq⟩

theorem After.runs_raise {e : E} (h : After p tr (.raise e)) : Runs p tr (.error e) := by
  generalize hq : Coro.raise e = q at h
  induction h with
  | here p =>
    subst hq
    exact ⟨rfl, rfl⟩
  | next _ ih => exact ⟨_, _, rfl, ih hq⟩

end

/-- The coroutine is at its end. -/
def Ended : Coro O A E α → Except E α → Prop
  | .ret a, r => r = .ok a
  | .raise e, r => r = .error e
  | .await _ _, _ => False

theorem After.runs {p q : Coro O A E α} {tr : Trace O A} {r : Except E α} (h : After p tr q)
    (hq : q.Ended r) : Runs p tr r := by
  cases q with
  | ret a =>
    obtain rfl : r = .ok a := hq
    exact h.runs_ret
  | raise e =>
    obtain rfl : r = .error e := hq
    exact h.runs_raise
  | await => exact hq.elim

theorem Ended.unique {p : Coro O A E α} {r r' : Except E α} (h : p.Ended r) (h' : p.Ended r') :
    r = r' := by
  cases p with
  | ret a => exact Eq.trans h (Eq.symm h')
  | raise e => exact Eq.trans h (Eq.symm h')
  | await => exact h.elim

/-! ## Histories -/

/-- Whatever the answers, every operation is performed behind a history that allows it; `h` is what
was performed before. -/
def Obeys (Q : Trace O A → O → Prop) : Trace O A → Coro O A E α → Prop
  | _, .ret _ => True
  | _, .raise _ => True
  | h, .await op k => Q h op ∧ ∀ x, Obeys Q (h ++ [⟨op, x⟩]) (k x)

section
variable {Q : Trace O A → O → Prop} {h : Trace O A}

theorem obeys_ask {op : O} (hop : Q h op) : Obeys Q h (ask op : Coro O A E (A op)) :=
  ⟨hop, fun _ => trivial⟩

theorem obeys_ofExcept (x : Except E α) : Obeys Q h (ofExcept x : Coro O A E α) := by
  cases x <;> trivial

theorem Only.obeys {P : O → Prop} {p : Coro O A E α} (hp : Only P p) (hP : ∀ h op, P op → Q h op)
    (h : Trace O A) : Obeys Q h p := by
  induction p generalizing h with
  | ret a => trivial
  | raise e => trivial
  | await op k ih => exact ⟨hP h op hp.1, fun x => ih x (hp.2 x) _⟩

theorem Obeys.bind {p : Coro O A E α} {f : α → Coro O A E β} (hp : Obeys Q h p)
    (hf : ∀ a tr, Runs p tr (.ok a) → Obeys Q (h ++ tr) (f a)) : Obeys Q h (p >>= f) := by
  induction p generalizing h with
  | ret a => simpa using hf a [] ⟨rfl, rfl⟩
  | raise e => trivial
  | await op k ih =>
    refine ⟨hp.1, fun x => ih x (hp.2 x) fun a tr hrun => ?_⟩
    have hrest := hf a (⟨op, x⟩ :: tr) ⟨x, tr, rfl, hrun⟩
    rwa [List.append_assoc]

theorem Obeys.tryCatch {p : Coro O A E α} {f : E → Coro O A E α} (hp : Obeys Q h p)
    (hf : ∀ e tr, Runs p tr (.error e) → Obeys Q (h ++ tr) (f e)) : Obeys Q h (tryCatch p f) := by
  show Obeys Q h (p.tryCatch f)
  induction p generalizing h with
  | ret a => trivial
  | raise e =>
    have hrest := hf e [] ⟨rfl, rfl⟩
    rwa [List.append_nil] at hrest
  | await op k ih =>
    refine ⟨hp.1, fun x => ih x (hp.2 x) fun e tr hrun => ?_⟩
    have hrest := hf e (⟨op, x⟩ :: tr) ⟨x, tr, rfl, hrun⟩
    rwa [List.append_assoc]

/-- A coroutine whose checks leave the history as it must be for what comes behind them. -/
theorem Through.obeys {P : O → Prop} {R : Coro O A E α → Prop} {H : Trace O A → Prop}
    {p : Coro O A E α} (hp : Through P R p) (hP : ∀ h op, P op → Q h op)
    (hH : ∀ h op x, P op → H h → H (h ++ [⟨op, x⟩])) (hR : ∀ h p, R p → H h → Obeys Q h p)
    (hh : H h) : Obeys Q h p := by
  induction hp generalizing h with
  | @here p hp => exact hR h p hp hh
  | raise e => trivial
  | await hop _ ih => exact ⟨hP h _ hop, fun x => ih x (hH h _ x hop hh)⟩

/-- **Where a coroutine performs an operation**, its history allows it. -/
theorem Obeys.of_after {p : Coro O A E α} {tr : Trace O A} {op : O} {k : A op → Coro O A E α}
    (hp : Obeys Q h p) (hafter : After p tr (.await op k)) : Q (h ++ tr) op := by
  generalize hq : Coro.await op k = q at hafter
  induction hafter generalizing h with
  | here p =>
    subst hq
    simpa using hp.1
  | @next _ _ x tr _ _ ih =>
    have hrest := ih (hp.2 x) hq
    rwa [List.append_assoc] at hrest

end

/-! ## Machines -/

/-- A state machine whose states stand for coroutines. -/
structure Machine (O : Type) (A : O → Type) (E α T : Type) where
  program : T → Coro O A E α
  next : T → Event O A → T
  /-- What it makes of an event stands for where the event takes the coroutine. -/
  program_next : ∀ {t : T} {op : O} {k : A op → Coro O A E α} (x : A op),
    program t = .await op k → program (next t ⟨op, x⟩) = k x

/-- The events of a coroutine tell where its machine is. -/
theorem After.machine {T : Type} (m : Machine O A E α T) {t : T} {q : Coro O A E α} {tr : Trace O A}
    (h : After (m.program t) tr q) : q = m.program (tr.foldl m.next t) := by
  generalize hp : m.program t = p at h
  induction h generalizing t with
  | here p => exact hp.symm
  | @next op k x tr q _ ih => exact ih (m.program_next x hp)

end Coro

/-! ## Pools -/

/-- Coroutines that run side by side, and the state that they share. -/
structure Pool (S I O : Type) (A : O → Type) (E α : Type) where
  shared : S
  task : I → Coro O A E α

/-- What a step of a pool is: an event of a coroutine, or a drift of the shared state. -/
abbrev Pool.Label (I O : Type) (A : O → Type) := Option (I × Event O A)

namespace Pool

variable {S I O : Type} {A : O → Type} {E α : Type} [DecidableEq I]

/-- A step: a coroutine performs its next operation, or the shared state drifts. -/
inductive Step (perform : I → S → (op : O) → A op → S → Prop) (drift : S → S → Prop) :
    Pool S I O A E α → Label I O A → Pool S I O A E α → Prop
  | perform {s : Pool S I O A E α} {shared : S} (i : I) {op : O} {k : A op → Coro O A E α}
      (x : A op) (htask : s.task i = .await op k) (h : perform i s.shared op x shared) :
      Step perform drift s (some (i, ⟨op, x⟩)) ⟨shared, Function.update s.task i (k x)⟩
  | drift {s : Pool S I O A E α} {shared : S} (h : drift s.shared shared) :
      Step perform drift s none ⟨shared, s.task⟩

/-- The events of one coroutine in a log. -/
def eventsOf (i : I) (log : List (Label I O A)) : Trace O A :=
  log.filterMap fun
    | some (j, event) => if j = i then some event else none
    | none => none

section
variable {i : I} {log log' : List (Label I O A)}

@[simp] theorem eventsOf_nil : eventsOf i ([] : List (Label I O A)) = [] := rfl

@[simp] theorem eventsOf_append : eventsOf i (log ++ log') = eventsOf i log ++ eventsOf i log' :=
  List.filterMap_append

@[simp] theorem eventsOf_drift : eventsOf i (none :: log) = eventsOf i log := rfl

@[simp] theorem eventsOf_self (event : Event O A) :
    eventsOf i (some (i, event) :: log) = event :: eventsOf i log := by
  simp [eventsOf]

theorem eventsOf_other {j : I} (h : j ≠ i) (event : Event O A) :
    eventsOf i (some (j, event) :: log) = eventsOf i log := by
  simp [eventsOf, h]

/-- An event of a coroutine is in the log, behind what it performed before. -/
theorem eventsOf_split {tr₁ tr₂ : Trace O A} {event : Event O A}
    (h : eventsOf i log = tr₁ ++ event :: tr₂) :
    ∃ before after, log = before ++ some (i, event) :: after ∧ eventsOf i before = tr₁ ∧
      eventsOf i after = tr₂ := by
  obtain ⟨before, rest, rfl, hbefore, hrest⟩ := List.filterMap_eq_append_iff.1 h
  obtain ⟨quiet, label, after, rfl, hquiet, hlabel, hafter⟩ := List.filterMap_eq_cons_iff.1 hrest
  obtain rfl : label = some (i, event) := by
    rcases label with _ | ⟨j, event'⟩
    · cases hlabel
    · simp only at hlabel
      split_ifs at hlabel with hj
      cases hlabel
      rw [hj]
  refine ⟨before ++ quiet, after, by simp, ?_, hafter⟩
  have hnone : eventsOf i quiet = [] := List.filterMap_eq_nil_iff.2 hquiet
  rw [eventsOf_append, hnone, List.append_nil]
  exact hbefore

end

section
variable {perform : I → S → (op : O) → A op → S → Prop} {drift : S → S → Prop}
  {s s' : Pool S I O A E α} {label : Label I O A} {log : List (Label I O A)}

/-- A step takes a coroutine on by its own event, or leaves it. -/
theorem Step.after (h : Step perform drift s label s') (i : I) {p : Coro O A E α} {tr : Trace O A}
    (hp : p.After tr (s.task i)) : p.After (tr ++ eventsOf i [label]) (s'.task i) := by
  cases h with
  | drift => simpa using hp
  | @perform shared j op k x htask h =>
    by_cases hj : j = i
    · subst hj
      rw [htask] at hp
      simpa using hp.snoc x
    · have hi : i ≠ j := fun heq => hj heq.symm
      simpa [eventsOf_other hj, Function.update_of_ne hi] using hp

/-- **Along a path every coroutine goes on by its own events.** -/
theorem after_of_path (h : Path (Step perform drift) s log s') (i : I) :
    (s.task i).After (eventsOf i log) (s'.task i) := by
  suffices hsuffices : ∀ {p : Coro O A E α} {tr : Trace O A}, p.After tr (s.task i) →
      p.After (tr ++ eventsOf i log) (s'.task i) by
    simpa using hsuffices (.here (s.task i))
  intro p tr hp
  induction h generalizing tr with
  | nil => simpa using hp
  | @cons _ _ _ label labels head _ ih =>
    have hlog : eventsOf i (label :: labels) = eventsOf i [label] ++ eventsOf i labels := by
      rw [← eventsOf_append]
      rfl
    rw [hlog, ← List.append_assoc]
    exact ih (head.after i hp)

/-- **A coroutine may run alone**, on what it finds shared. -/
theorem path_of_runs {i : I} {tr : Trace O A} {r : Except E α} {w' : S}
    (hrun : (s.task i).Runs tr r)
    (hperform : Path (fun w (event : Event O A) w' => perform i w event.op event.answer w')
      s.shared tr w') :
    ∃ q : Coro O A E α, q.Ended r ∧ Path (Step perform drift) s (tr.map fun event => some (i, event))
      ⟨w', Function.update s.task i q⟩ := by
  induction tr generalizing s with
  | nil =>
    cases hperform
    refine ⟨s.task i, ?_, by simpa using Path.nil s⟩
    cases htask : s.task i <;> rw [htask] at hrun
    · exact hrun.2
    · exact hrun.2
    · obtain ⟨x, rest, ⟨⟩, -⟩ := hrun
  | cons event tr ih =>
    obtain ⟨w, hhead, htail⟩ := path_cons.1 hperform
    cases htask : s.task i with
    | ret a =>
      rw [htask] at hrun
      obtain ⟨⟨⟩, -⟩ := hrun
    | raise e =>
      rw [htask] at hrun
      obtain ⟨⟨⟩, -⟩ := hrun
    | await op k =>
      rw [htask] at hrun
      obtain ⟨x, rest, heq, hrun⟩ := hrun
      cases heq
      have hnext : Coro.Runs (Function.update s.task i (k x) i) tr r := by
        rwa [Function.update_self]
      obtain ⟨q, hended, hpath⟩ := @ih ⟨w, Function.update s.task i (k x)⟩ hnext htail
      refine ⟨q, hended, .cons (.perform i x htask hhead) ?_⟩
      simpa using hpath

/-- A step of a path, with what came before it and the states on both sides. -/
def At (step : Pool S I O A E α → Label I O A → Pool S I O A E α → Prop) (s : Pool S I O A E α)
    (log : List (Label I O A)) (s'' : Pool S I O A E α) (before : List (Label I O A))
    (label : Label I O A) (mid mid' : Pool S I O A E α) : Prop :=
  ∃ after, log = before ++ label :: after ∧ Path step s before mid ∧ step mid label mid' ∧
    Path step mid' after s''

/-- A part of the log is a step of the path. -/
theorem exists_at {before after : List (Label I O A)}
    (h : Path (Step perform drift) s (before ++ label :: after) s') :
    ∃ mid mid', At (Step perform drift) s (before ++ label :: after) s' before label mid mid' ∧
      Path (Step perform drift) mid' after s' := by
  obtain ⟨mid, hbefore, h⟩ := path_append.1 h
  obtain ⟨mid', hstep, hafter⟩ := path_cons.1 h
  exact ⟨mid, mid', ⟨after, rfl, hbefore, hstep, hafter⟩, hafter⟩

end

/-! ### Pools of machines -/

section
variable {T : Type} (m : Coro.Machine O A E α T) {start : I → T}

/-- Where the machines are after a log. -/
def stages (start : I → T) (log : List (Label I O A)) (i : I) : T :=
  (eventsOf i log).foldl m.next (start i)

theorem stages_nil : stages m start ([] : List (Label I O A)) = start := rfl

theorem stages_append (log log' : List (Label I O A)) :
    stages m start (log ++ log') = stages m (stages m start log) log' := by
  funext i
  simp [stages]

theorem stages_perform (i : I) (event : Event O A) (log : List (Label I O A)) :
    stages m start (some (i, event) :: log) =
      stages m (Function.update start i (m.next (start i) event)) log := by
  funext j
  by_cases hj : i = j
  · subst hj
    simp [stages]
  · have hi : j ≠ i := fun heq => hj heq.symm
    simp [stages, eventsOf_other hj, Function.update_of_ne hi]

theorem stages_drift (log : List (Label I O A)) :
    stages m start (none :: log) = stages m start log := rfl

variable {perform : I → S → (op : O) → A op → S → Prop} {drift : S → S → Prop}
  {s s' : Pool S I O A E α} {log : List (Label I O A)}

theorem task_of_path (h : Path (Step perform drift) s log s')
    (htask : ∀ i, s.task i = m.program (start i)) (i : I) :
    s'.task i = m.program (stages m start log i) := by
  have hafter := after_of_path h i
  rw [htask i] at hafter
  exact hafter.machine m

/-- **The invariant rule for machines.** -/
theorem machine_invariant {J : S → (I → T) → Prop} (h : Path (Step perform drift) s log s')
    (htask : ∀ i, s.task i = m.program (start i))
    (hperform : ∀ {w w' : S} {t : I → T} {i : I} {op : O} {k : A op → Coro O A E α} {x : A op},
      m.program (t i) = .await op k → perform i w op x w' → J w t →
        J w' (Function.update t i (m.next (t i) ⟨op, x⟩)))
    (hdrift : ∀ {w w' : S} {t : I → T}, drift w w' → J w t → J w' t)
    (hstart : J s.shared start) : J s'.shared (stages m start log) := by
  induction h generalizing start with
  | nil => exact hstart
  | @cons s s₁ s' label labels head tail ih =>
    cases head with
    | drift hd =>
      rw [stages_drift]
      exact ih htask (hdrift hd hstart)
    | @perform shared i op k x hawait hp =>
      rw [stages_perform]
      have hprogram : m.program (start i) = .await op k := by rw [← htask i, hawait]
      refine ih (fun j => ?_) (hperform hprogram hp hstart)
      by_cases hj : j = i
      · subst hj
        simp [m.program_next x hprogram]
      · simp [Function.update_of_ne hj, htask j]

end

/-! ### A lock -/

/-- The lock is held if and only if a machine is inside, and then by that one alone. -/
structure Mutex {T : Type} (inside : T → Prop) (locked : Bool) (t : I → T) : Prop where
  locked_iff : locked = true ↔ ∃ i, inside (t i)
  alone : ∀ i j, inside (t i) → inside (t j) → i = j

namespace Mutex

variable {T : Type} {inside : T → Prop} {locked : Bool} {t : I → T} {i : I} {x : T}

/-- A move that neither takes the lock nor gives it back. -/
theorem keep (h : Mutex inside locked t) (hx : inside x ↔ inside (t i)) :
    Mutex inside locked (Function.update t i x) := by
  have hsame : ∀ j, inside (Function.update t i x j) ↔ inside (t j) := by
    intro j
    by_cases hj : j = i
    · subst hj
      simpa using hx
    · simp [Function.update_of_ne hj]
  refine ⟨?_, fun j k hj hk => h.alone j k ((hsame j).1 hj) ((hsame k).1 hk)⟩
  rw [h.locked_iff]
  exact exists_congr fun j => (hsame j).symm

theorem enter (h : Mutex inside false t) (hx : inside x) :
    Mutex inside true (Function.update t i x) := by
  have hnone : ∀ j, ¬inside (t j) := by
    intro j hj
    cases h.locked_iff.2 ⟨j, hj⟩
  have honly : ∀ j, inside (Function.update t i x j) → j = i := by
    intro j hj
    by_contra hne
    rw [Function.update_of_ne hne] at hj
    exact hnone j hj
  exact ⟨iff_of_true rfl ⟨i, by simpa using hx⟩,
    fun j k hj hk => (honly j hj).trans (honly k hk).symm⟩

theorem leave (h : Mutex inside locked t) (hi : inside (t i)) (hx : ¬inside x) :
    Mutex inside false (Function.update t i x) := by
  have hnone : ∀ j, ¬inside (Function.update t i x j) := by
    intro j hj
    by_cases hne : j = i
    · subst hne
      exact hx (by simpa using hj)
    · rw [Function.update_of_ne hne] at hj
      exact hne (h.alone j i hj hi)
  exact ⟨iff_of_false Bool.false_ne_true fun ⟨j, hj⟩ => hnone j hj,
    fun j _ hj => (hnone j hj).elim⟩

end Mutex

end Pool

end TradeStation.Foundations
