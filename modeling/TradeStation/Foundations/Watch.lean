import TradeStation.Foundations.Pool

/-!
# Coroutines under watch

A watch has a state, which every event of a coroutine takes on, and says in which states an operation
is in order. What a coroutine keeps to under a watch is proved piece by piece; in a pool it is what
each coroutine contributes to an invariant of all.

* `Keeps m s p Q`: from the state `s` on, whatever the answers, `p` performs an operation only where
  it is in order, and ends as `Q` says. The rules are `Keeps.bind`, `Keeps.tryCatch`, `Only.keeps`.
* `link h p`: the operations of `p` are coroutines themselves, which `h` gives. Operations may be of
  two kinds; `inl p` performs those of the first.
* `Pool.watch_invariant`: an invariant of what is shared, of the states of the watches and of what has
  happened, kept by every operation that is in order, is kept along a path.
-/

namespace TradeStation.Foundations

/-- A watch over the operations of a coroutine. -/
structure Watch (O : Type) (A : O → Type) (S : Type) where
  next : S → Event O A → S
  allows : S → O → Prop

/-- The part of a watch that sees the first of two kinds of operations. -/
def Watch.onLeft {O O' S : Type} {A : O → Type} {A' : O' → Type}
    (m : Watch (O ⊕ O') (Sum.elim A A') S) : Watch O A S where
  next s event := m.next s ⟨.inl event.op, event.answer⟩
  allows s op := m.allows s (.inl op)

namespace Coro

variable {O O' : Type} {A : O → Type} {A' : O' → Type} {E α β S : Type}

/-! ## Linking -/

/-- The operations are performed by coroutines. -/
def link (h : (op : O) → Coro O' A' E (A op)) : Coro O A E α → Coro O' A' E α
  | .ret a => .ret a
  | .raise e => .raise e
  | .await op k => h op >>= fun x => link h (k x)

/-- The operations are the first of two kinds. -/
def inl : Coro O A E α → Coro (O ⊕ O') (Sum.elim A A') E α
  | .ret a => .ret a
  | .raise e => .raise e
  | .await op k => .await (.inl op) fun x => inl (k x)

section
variable (h : (op : O) → Coro O' A' E (A op))

@[simp] theorem link_ret (a : α) : link h (.ret a) = .ret a := rfl

@[simp] theorem link_raise (e : E) : link h (.raise e : Coro O A E α) = .raise e := rfl

@[simp] theorem link_await (op : O) (k : A op → Coro O A E α) :
    link h (.await op k) = h op >>= fun x => link h (k x) := rfl

@[simp] theorem link_ofExcept (x : Except E α) : link h (ofExcept x : Coro O A E α) = ofExcept x := by
  cases x <;> rfl

/-- Linking goes through a sequence. -/
theorem link_bind (p : Coro O A E α) (f : α → Coro O A E β) :
    link h (p >>= f) = link h p >>= fun a => link h (f a) := by
  induction p with
  | ret a => rfl
  | raise e => rfl
  | await op k ih =>
    show h op >>= _ = (h op >>= fun x => link h (k x)) >>= _
    rw [bind_assoc]
    exact congrArg (h op >>= ·) (funext ih)

end

/-- The trace of a linked coroutine: what performs an operation comes in place of the operation. -/
inductive Linked (h : (op : O) → Coro O' A' E (A op)) : Trace O A → Trace O' A' → Prop
  | nil : Linked h [] []
  | next {op : O} {x : A op} {tr rest' : Trace O' A'} {rest : Trace O A}
    (hop : Runs (h op) tr (.ok x)) (hrest : Linked h rest rest') :
    Linked h (⟨op, x⟩ :: rest) (tr ++ rest')

/-- A run is linked event by event. -/
theorem Runs.link {h : (op : O) → Coro O' A' E (A op)} {p : Coro O A E α} {outer : Trace O A}
    {tr : Trace O' A'} {r : Except E α} (hrun : Runs p outer r) (hlinked : Linked h outer tr) :
    Runs (link h p) tr r := by
  induction p generalizing outer tr with
  | ret a =>
    obtain ⟨rfl, rfl⟩ := hrun
    cases hlinked
    exact ⟨rfl, rfl⟩
  | raise e =>
    obtain ⟨rfl, rfl⟩ := hrun
    cases hlinked
    exact ⟨rfl, rfl⟩
  | await op k ih =>
    obtain ⟨x, rest, rfl, hrun⟩ := hrun
    cases hlinked with
    | next hop hrest => exact runs_bind.2 (.inr ⟨x, _, _, rfl, hop, ih x hrun hrest⟩)

/-! ## Keeping to a watch -/

/-- From a state on, all operations are in order, and the end is as `Q` says. -/
def Keeps (m : Watch O A S) : S → Coro O A E α → (S → Except E α → Prop) → Prop
  | s, .ret a, Q => Q s (.ok a)
  | s, .raise e, Q => Q s (.error e)
  | s, .await op k, Q => m.allows s op ∧ ∀ x, Keeps m (m.next s ⟨op, x⟩) (k x) Q

section
variable {m : Watch O A S} {s : S} {p : Coro O A E α} {Q : S → Except E α → Prop}

@[simp] theorem keeps_ret {a : α} : Keeps m s (.ret a) Q ↔ Q s (.ok a) := Iff.rfl

@[simp] theorem keeps_raise {e : E} : Keeps m s (.raise e) Q ↔ Q s (.error e) := Iff.rfl

@[simp] theorem keeps_await {op : O} {k : A op → Coro O A E α} :
    Keeps m s (.await op k) Q ↔ m.allows s op ∧ ∀ x, Keeps m (m.next s ⟨op, x⟩) (k x) Q := Iff.rfl

@[simp] theorem keeps_ofExcept {x : Except E α} : Keeps m s (ofExcept x) Q ↔ Q s x := by
  cases x <;> exact Iff.rfl

theorem Keeps.mono {R : S → Except E α → Prop} (hp : Keeps m s p Q) (h : ∀ s r, Q s r → R s r) :
    Keeps m s p R := by
  induction p generalizing s with
  | ret a => exact h _ _ hp
  | raise e => exact h _ _ hp
  | await op k ih => exact ⟨hp.1, fun x => ih x (hp.2 x)⟩

theorem keeps_ask_bind {R : S → Except E β → Prop} {op : O} {f : A op → Coro O A E β} :
    Keeps m s (ask op >>= f) R ↔ m.allows s op ∧ ∀ x, Keeps m (m.next s ⟨op, x⟩) (f x) R := Iff.rfl

/-- How a first part has to end. -/
def Then (m : Watch O A S) (f : α → Coro O A E β) (R : S → Except E β → Prop) :
    S → Except E α → Prop
  | s, .ok a => Keeps m s (f a) R
  | s, .error e => R s (.error e)

theorem keeps_bind {R : S → Except E β → Prop} {f : α → Coro O A E β} :
    Keeps m s (p >>= f) R ↔ Keeps m s p (Then m f R) := by
  induction p generalizing s with
  | ret a => exact Iff.rfl
  | raise e => exact Iff.rfl
  | await op k ih => exact and_congr Iff.rfl (forall_congr' fun x => ih x)

theorem Keeps.bind {R : S → Except E β → Prop} {f : α → Coro O A E β} (hp : Keeps m s p Q)
    (hok : ∀ s a, Q s (.ok a) → Keeps m s (f a) R)
    (herror : ∀ s e, Q s (.error e) → R s (.error e)) : Keeps m s (p >>= f) R := by
  refine keeps_bind.2 (hp.mono fun s r h => ?_)
  cases r with
  | ok a => exact hok s a h
  | error e => exact herror s e h

theorem Keeps.check {R : S → Except E β → Prop} {x : Except E α} {f : α → Coro O A E β}
    (hok : ∀ a, x = .ok a → Keeps m s (f a) R) (herror : ∀ e, R s (.error e)) :
    Keeps m s (ofExcept x >>= f) R := by
  cases x with
  | ok a => exact hok a rfl
  | error e => exact herror e

theorem Keeps.tryCatch {R : S → Except E α → Prop} {f : E → Coro O A E α} (hp : Keeps m s p Q)
    (hok : ∀ s a, Q s (.ok a) → R s (.ok a))
    (herror : ∀ s e, Q s (.error e) → Keeps m s (f e) R) : Keeps m s (tryCatch p f) R := by
  show Keeps m s (p.tryCatch f) R
  induction p generalizing s with
  | ret a => exact hok _ _ hp
  | raise e => exact herror _ _ hp
  | await op k ih => exact ⟨hp.1, fun x => ih x (hp.2 x)⟩

/-- An exception that is made a value. -/
theorem Keeps.caught {R : S → Except E (Except E α) → Prop} (hp : Keeps m s p Q)
    (h : ∀ s r, Q s r → R s (.ok r)) :
    Keeps m s (MonadExcept.tryCatch (p >>= fun a => .ret (.ok a)) fun e => .ret (.error e)) R := by
  have hvalue : Keeps m s (p >>= fun a => .ret (.ok a)) fun s r => match r with
      | .ok r => R s (.ok r)
      | .error e => R s (.ok (.error e)) :=
    hp.bind (fun s a => h s (.ok a)) fun s e => h s (.error e)
  exact hvalue.tryCatch (fun _ _ => id) fun _ _ => id

/-- An exception goes to the handler, unless it is raised by what performs an operation. -/
theorem Keeps.link_tryCatch {h : (op : O) → Coro O' A' E (A op)} {m : Watch O' A' S}
    {R : S → Except E α → Prop} {f : E → Coro O A E α} (hp : Keeps m s (link h p) Q)
    (hok : ∀ s a, Q s (.ok a) → R s (.ok a))
    (herror : ∀ s e, Q s (.error e) → R s (.error e) ∧ Keeps m s (link h (f e)) R) :
    Keeps m s (link h (MonadExcept.tryCatch p f)) R := by
  show Keeps m s (link h (p.tryCatch f)) R
  induction p generalizing s with
  | ret a => exact hok _ _ hp
  | raise e => exact (herror _ _ hp).2
  | await op k ih =>
    rw [link_await, keeps_bind] at hp
    refine hp.bind (fun s x hx => ih x hx) fun s e he => (herror s e he).1

/-- A watch sees of the first kind of operations what it sees of them alone. -/
theorem Keeps.inl {m : Watch (O ⊕ O') (Sum.elim A A') S} {p : Coro O A E α}
    (hp : Keeps m.onLeft s p Q) : Keeps m s (Coro.inl p) Q := by
  induction p generalizing s with
  | ret a => exact hp
  | raise e => exact hp
  | await op k ih => exact ⟨hp.1, fun x => ih x (hp.2 x)⟩

/-- A coroutine of operations that are in order and leave the state as it is. -/
theorem Only.keeps {P : O → Prop} (hp : Only P p)
    (hP : ∀ op, P op → m.allows s op ∧ ∀ x, m.next s ⟨op, x⟩ = s) :
    Keeps m s p fun s' r => s' = s ∧ ∃ tr, Runs p tr r := by
  induction p with
  | ret a => exact ⟨rfl, [], rfl, rfl⟩
  | raise e => exact ⟨rfl, [], rfl, rfl⟩
  | await op k ih =>
    refine ⟨(hP op hp.1).1, fun x => ?_⟩
    rw [(hP op hp.1).2 x]
    refine (ih x (hp.2 x)).mono ?_
    rintro s' r ⟨rfl, tr, hrun⟩
    exact ⟨rfl, _, x, tr, rfl, hrun⟩

/-- A coroutine whose operations are watched one by one. -/
theorem Only.keeps_link {P : O → Prop} {h : (op : O) → Coro O' A' E (A op)} {m : Watch O' A' S}
    {I : S → Prop} {p : Coro O A E α} (hp : Only P p) (hs : I s)
    (hI : ∀ s op, I s → P op → Keeps m s (h op) fun s r => I s ∧ ∃ x, r = .ok x) :
    Keeps m s (link h p) fun s _ => I s := by
  induction p generalizing s with
  | ret a => exact hs
  | raise e => exact hs
  | await op k ih =>
    refine (hI s op hs hp.1).bind (fun s x hs => ih x (hp.2 x) hs.1) ?_
    rintro s e ⟨-, x, ⟨⟩⟩

/-- What has been kept to so far is kept to from here. -/
theorem Keeps.after {q : Coro O A E α} {tr : Trace O A} (hp : Keeps m s p Q) (h : After p tr q) :
    Keeps m (tr.foldl m.next s) q Q := by
  induction h generalizing s with
  | here p => exact hp
  | next _ ih => exact ih (hp.2 _)

end

end Coro

/-! ## Pools under watch -/

namespace Pool

variable {S I O : Type} {A : O → Type} {E α T : Type} [DecidableEq I]
  {perform : I → S → (op : O) → A op → S → Prop} {drift : S → S → Prop} {s s' : Pool S I O A E α}
  {log : List (Label I O A)}

/-- The states of the watches after a log. -/
def watched (m : Watch O A T) (t : I → T) (log : List (Label I O A)) (i : I) : T :=
  (eventsOf i log).foldl m.next (t i)

section
variable (m : Watch O A T) (t : I → T)

theorem watched_nil : watched m t ([] : List (Label I O A)) = t := rfl

theorem watched_append (log log' : List (Label I O A)) :
    watched m t (log ++ log') = watched m (watched m t log) log' := by
  funext i
  simp [watched]

theorem watched_drift (log : List (Label I O A)) : watched m t (none :: log) = watched m t log := rfl

theorem watched_perform (i : I) (event : Event O A) (log : List (Label I O A)) :
    watched m t (some (i, event) :: log) =
      watched m (Function.update t i (m.next (t i) event)) log := by
  funext j
  by_cases hj : i = j
  · subst hj
    simp [watched]
  · have hi : j ≠ i := fun heq => hj heq.symm
    simp [watched, eventsOf_other hj, Function.update_of_ne hi]

end

variable {m : Watch O A T} {t : I → T} {Q : I → T → Except E α → Prop}

/-- What the coroutines keep to, they keep to along a path. -/
theorem keeps_of_path (h : Path (Step perform drift) s log s')
    (hkeeps : ∀ i, (s.task i).Keeps m (t i) (Q i)) (i : I) :
    (s'.task i).Keeps m (watched m t log i) (Q i) :=
  (hkeeps i).after (after_of_path h i)

/-- **The invariant rule for pools under watch.** -/
theorem watch_invariant {J : List (Label I O A) → S → (I → T) → Prop}
    (h : Path (Step perform drift) s log s') (hkeeps : ∀ i, (s.task i).Keeps m (t i) (Q i))
    (hperform : ∀ {log : List (Label I O A)} {w w' : S} {t : I → T} {i : I} {op : O} {x : A op},
      m.allows (t i) op → perform i w op x w' → J log w t →
        J (log ++ [some (i, ⟨op, x⟩)]) w' (Function.update t i (m.next (t i) ⟨op, x⟩)))
    (hdrift : ∀ {log : List (Label I O A)} {w w' : S} {t : I → T}, drift w w' → J log w t →
      J (log ++ [none]) w' t)
    (before : List (Label I O A)) (hstart : J before s.shared t) :
    J (before ++ log) s'.shared (watched m t log) := by
  induction h generalizing t before with
  | nil => simpa [watched_nil] using hstart
  | @cons s s₁ s' label labels head tail ih =>
    have hrest : before ++ label :: labels = (before ++ [label]) ++ labels := by simp
    rw [hrest]
    cases head with
    | drift hd =>
      rw [watched_drift]
      exact ih hkeeps _ (hdrift hd hstart)
    | @perform shared i op k x hawait hp =>
      rw [watched_perform]
      have hi := hkeeps i
      rw [hawait] at hi
      refine ih (fun j => ?_) _ (hperform hi.1 hp hstart)
      by_cases hj : j = i
      · subst hj
        simpa using hi.2 x
      · simpa [Function.update_of_ne hj] using hkeeps j

/-- An operation that is performed is in order. -/
theorem Step.allowed {i : I} {event : Event O A} {seat : T}
    {Q : T → Except E α → Prop} (h : Step perform drift s (some (i, event)) s')
    (hkeeps : (s.task i).Keeps m seat Q) : m.allows seat event.op := by
  cases h with
  | perform _ x hawait _ =>
    rw [hawait] at hkeeps
    exact hkeeps.1

end Pool

end TradeStation.Foundations
