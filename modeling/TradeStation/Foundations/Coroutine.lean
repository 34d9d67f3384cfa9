import Mathlib.Data.Nat.Notation

/-!
# Coroutines against an environment

A coroutine awaits operations of the outside world, and the answer to each decides how it goes
on. It is the common shape of asynchronous code: the operations are the calls that leave the
program, and everything between two of them is pure.

* `Coro O A E α` is a coroutine with operations `O`, an answer in `A op` to the operation `op`,
  exceptions in `E` and a result in `α`. It is a well-founded tree, so every run of it ends.
* `Runs p tr r`: with the answers recorded in the trace `tr`, `p` performs exactly the operations
  of `tr` and finishes with `r`. The rules `runs_bind` and `runs_tryCatch` take a run apart at a
  sequencing and at a handler.
* `Only P p`: `p` performs none but operations in `P`.
* `Leads P Q p`: `p` does not go beyond `P` until its checks are passed, and then goes on as `Q` says.
* `Through P Q p`: `p` does not go beyond `P` until it has become a coroutine in `Q`.
* `exec env h p` is the run against an environment, a function that answers each operation
  knowing all that was performed before; `exec_runs` says it is a run.
-/

namespace TradeStation.Foundations

/-- A coroutine: it has returned, it has raised, or it awaits the answer to an operation. -/
inductive Coro (O : Type) (A : O → Type) (E α : Type) : Type
  | ret (a : α)
  | raise (e : E)
  | await (op : O) (resume : A op → Coro O A E α)

/-- An operation that was performed, with the answer it got. -/
structure Event (O : Type) (A : O → Type) where
  op : O
  answer : A op

/-- The operations performed in a run, in order. -/
abbrev Trace (O : Type) (A : O → Type) := List (Event O A)

/-- An event that is not in a first stretch of a trace is behind it. -/
theorem Trace.behind {O : Type} {A : O → Type} {quiet rest before after : Trace O A}
    {event : Event O A} (hevent : event ∉ quiet) (h : quiet ++ rest = before ++ event :: after) :
    ∃ before', before = quiet ++ before' ∧ rest = before' ++ event :: after := by
  rcases List.append_eq_append_iff.1 h with ⟨q, rfl, hrest⟩ | ⟨q, rfl, hq⟩
  · exact ⟨q, rfl, hrest⟩
  · cases q with
    | nil => exact ⟨[], by simp, by simpa using hq.symm⟩
    | cons event' q =>
      obtain ⟨rfl, -⟩ := List.cons.inj hq
      simp at hevent

namespace Coro

variable {O : Type} {A : O → Type} {E α β : Type}

/-- Sequencing; an exception skips the rest. -/
protected def bind : Coro O A E α → (α → Coro O A E β) → Coro O A E β
  | .ret a, f => f a
  | .raise e, _ => .raise e
  | .await op k, f => .await op fun x => (k x).bind f

/-- Run `p`; an exception of `p` goes to the handler `f`. -/
protected def tryCatch : Coro O A E α → (E → Coro O A E α) → Coro O A E α
  | .ret a, _ => .ret a
  | .raise e, f => f e
  | .await op k, f => .await op fun x => (k x).tryCatch f

instance : Monad (Coro O A E) where
  pure := .ret
  bind := .bind

instance : MonadExceptOf E (Coro O A E) where
  throw := .raise
  tryCatch := .tryCatch

/-- Perform an operation and return its answer. -/
def ask (op : O) : Coro O A E (A op) := .await op .ret

/-- Return a value or raise an exception that is already there. -/
def ofExcept : Except E α → Coro O A E α
  | .ok a => .ret a
  | .error e => .raise e

@[simp] theorem pure_eq (a : α) : (pure a : Coro O A E α) = .ret a := rfl

@[simp] theorem throw_eq (e : E) : (throw e : Coro O A E α) = .raise e := rfl

@[simp] theorem ret_bind (a : α) (f : α → Coro O A E β) : (.ret a >>= f) = f a := rfl

@[simp] theorem raise_bind (e : E) (f : α → Coro O A E β) :
    ((.raise e : Coro O A E α) >>= f) = .raise e := rfl

@[simp] theorem await_bind (op : O) (k : A op → Coro O A E α) (f : α → Coro O A E β) :
    (.await op k >>= f) = .await op fun x => k x >>= f := rfl

@[simp] theorem ask_bind (op : O) (f : A op → Coro O A E β) : (ask op >>= f) = .await op f := rfl

@[simp] theorem ofExcept_ok (a : α) : (ofExcept (.ok a) : Coro O A E α) = .ret a := rfl

@[simp] theorem ofExcept_error (e : E) : (ofExcept (.error e) : Coro O A E α) = .raise e := rfl

theorem bind_assoc {γ : Type} (p : Coro O A E α) (f : α → Coro O A E β) (g : β → Coro O A E γ) :
    (p >>= f) >>= g = p >>= fun a => f a >>= g := by
  induction p with
  | ret a => rfl
  | raise e => rfl
  | await op k ih => exact congrArg (Coro.await op) (funext ih)

/-! ## Runs -/

/-- With the answers recorded in `tr`, the coroutine performs the operations of `tr` and finishes
with `r`. -/
def Runs : Coro O A E α → Trace O A → Except E α → Prop
  | .ret a, tr, r => tr = [] ∧ r = .ok a
  | .raise e, tr, r => tr = [] ∧ r = .error e
  | .await op k, tr, r => ∃ x rest, tr = ⟨op, x⟩ :: rest ∧ Runs (k x) rest r

@[simp] theorem runs_ret {a : α} {tr : Trace O A} {r : Except E α} :
    Runs (.ret a) tr r ↔ tr = [] ∧ r = .ok a := Iff.rfl

@[simp] theorem runs_raise {e : E} {tr : Trace O A} {r : Except E α} :
    Runs (.raise e) tr r ↔ tr = [] ∧ r = .error e := Iff.rfl

@[simp] theorem runs_await {op : O} {k : A op → Coro O A E α} {tr : Trace O A}
    {r : Except E α} :
    Runs (.await op k) tr r ↔ ∃ x rest, tr = ⟨op, x⟩ :: rest ∧ Runs (k x) rest r := Iff.rfl

/-- **A run of a sequence** is a run of the first part that raises, or one that returns followed
by a run of the second part. -/
theorem runs_bind {p : Coro O A E α} {f : α → Coro O A E β} {tr : Trace O A}
    {r : Except E β} :
    Runs (p >>= f) tr r ↔
      (∃ e, Runs p tr (.error e) ∧ r = .error e) ∨
        ∃ a tr₁ tr₂, tr = tr₁ ++ tr₂ ∧ Runs p tr₁ (.ok a) ∧ Runs (f a) tr₂ r := by
  induction p generalizing tr with
  | ret a =>
    constructor
    · exact fun h => .inr ⟨a, [], tr, rfl, ⟨rfl, rfl⟩, h⟩
    · rintro (⟨e, ⟨-, h⟩, -⟩ | ⟨a', tr₁, tr₂, rfl, ⟨rfl, h⟩, h₂⟩)
      · cases h
      · cases h
        exact h₂
  | raise e =>
    constructor
    · rintro ⟨rfl, rfl⟩
      exact .inl ⟨e, ⟨rfl, rfl⟩, rfl⟩
    · rintro (⟨e', ⟨rfl, h⟩, rfl⟩ | ⟨a, tr₁, tr₂, -, ⟨-, h⟩, -⟩)
      · exact ⟨rfl, by cases h; rfl⟩
      · cases h
  | await op k ih =>
    simp only [await_bind, runs_await, ih]
    constructor
    · rintro ⟨x, rest, rfl, ⟨e, h, rfl⟩ | ⟨a, tr₁, tr₂, rfl, h₁, h₂⟩⟩
      · exact .inl ⟨e, ⟨x, rest, rfl, h⟩, rfl⟩
      · exact .inr ⟨a, ⟨op, x⟩ :: tr₁, tr₂, rfl, ⟨x, tr₁, rfl, h₁⟩, h₂⟩
    · rintro (⟨e, ⟨x, rest, rfl, h⟩, rfl⟩ | ⟨a, _, tr₂, rfl, ⟨x, rest, rfl, h₁⟩, h₂⟩)
      · exact ⟨x, rest, rfl, .inl ⟨e, h, rfl⟩⟩
      · exact ⟨x, rest ++ tr₂, rfl, .inr ⟨a, rest, tr₂, rfl, h₁, h₂⟩⟩

/-- **A run of a guarded coroutine** is a run that returns, or one that raises followed by a run
of the handler. -/
theorem runs_tryCatch {p : Coro O A E α} {f : E → Coro O A E α} {tr : Trace O A}
    {r : Except E α} :
    Runs (tryCatch p f) tr r ↔
      (∃ a, Runs p tr (.ok a) ∧ r = .ok a) ∨
        ∃ e tr₁ tr₂, tr = tr₁ ++ tr₂ ∧ Runs p tr₁ (.error e) ∧ Runs (f e) tr₂ r := by
  change Runs (p.tryCatch f) tr r ↔ _
  induction p generalizing tr with
  | ret a =>
    constructor
    · rintro ⟨rfl, rfl⟩
      exact .inl ⟨a, ⟨rfl, rfl⟩, rfl⟩
    · rintro (⟨a', ⟨rfl, h⟩, rfl⟩ | ⟨e, tr₁, tr₂, -, ⟨-, h⟩, -⟩)
      · exact ⟨rfl, by cases h; rfl⟩
      · cases h
  | raise e =>
    constructor
    · exact fun h => .inr ⟨e, [], tr, rfl, ⟨rfl, rfl⟩, h⟩
    · rintro (⟨a, ⟨-, h⟩, -⟩ | ⟨e', tr₁, tr₂, rfl, ⟨rfl, h⟩, h₂⟩)
      · cases h
      · cases h
        exact h₂
  | await op k ih =>
    simp only [Coro.tryCatch, runs_await, ih]
    constructor
    · rintro ⟨x, rest, rfl, ⟨a, h, rfl⟩ | ⟨e, tr₁, tr₂, rfl, h₁, h₂⟩⟩
      · exact .inl ⟨a, ⟨x, rest, rfl, h⟩, rfl⟩
      · exact .inr ⟨e, ⟨op, x⟩ :: tr₁, tr₂, rfl, ⟨x, tr₁, rfl, h₁⟩, h₂⟩
    · rintro (⟨a, ⟨x, rest, rfl, h⟩, rfl⟩ | ⟨e, _, tr₂, rfl, ⟨x, rest, rfl, h₁⟩, h₂⟩)
      · exact ⟨x, rest, rfl, .inl ⟨a, h, rfl⟩⟩
      · exact ⟨x, rest ++ tr₂, rfl, .inr ⟨e, rest, tr₂, rfl, h₁, h₂⟩⟩

/-- Every event of a run is the next of the tree, so that the trace decides the end. -/
theorem Runs.unique {p : Coro O A E α} {tr : Trace O A} {r r' : Except E α} (h : Runs p tr r)
    (h' : Runs p tr r') : r = r' := by
  induction p generalizing tr with
  | ret a => exact h.2.trans h'.2.symm
  | raise e => exact h.2.trans h'.2.symm
  | await op k ih =>
    obtain ⟨x, rest, rfl, h⟩ := h
    obtain ⟨x', rest', heq, h'⟩ := h'
    cases heq
    exact ih x h h'

@[simp] theorem runs_ofExcept {x : Except E α} {tr : Trace O A} {r : Except E α} :
    Runs (ofExcept x) tr r ↔ tr = [] ∧ r = x := by
  cases x <;> exact Iff.rfl

/-- A run of a sequence that returns. -/
theorem runs_bind_ok {p : Coro O A E α} {f : α → Coro O A E β} {tr : Trace O A} {b : β} :
    Runs (p >>= f) tr (.ok b) ↔
      ∃ a tr₁ tr₂, tr = tr₁ ++ tr₂ ∧ Runs p tr₁ (.ok a) ∧ Runs (f a) tr₂ (.ok b) := by
  rw [runs_bind]
  constructor
  · rintro (⟨e, -, he⟩ | h)
    · cases he
    · exact h
  · exact .inr

/-- A result that is checked at the end. -/
theorem Runs.bind_ofExcept {p : Coro O A E α} {tr : Trace O A} {a : α} (h : Runs p tr (.ok a))
    (f : α → Except E β) : Runs (p >>= fun a => ofExcept (f a)) tr (f a) := by
  rw [runs_bind]
  exact .inr ⟨a, tr, [], (List.append_nil tr).symm, h, runs_ofExcept.2 ⟨rfl, rfl⟩⟩

/-- A run of a check and what follows it. -/
theorem runs_check_bind {x : Except E α} {f : α → Coro O A E β} {tr : Trace O A}
    {r : Except E β} :
    Runs (ofExcept x >>= f) tr r ↔
      (∃ e, x = .error e ∧ tr = [] ∧ r = .error e) ∨ ∃ a, x = .ok a ∧ Runs (f a) tr r := by
  cases x with
  | ok a => simp
  | error e => simp [raise_bind]

theorem runs_check_bind_ok {x : Except E α} {f : α → Coro O A E β} {tr : Trace O A} {b : β} :
    Runs (ofExcept x >>= f) tr (.ok b) ↔ ∃ a, x = .ok a ∧ Runs (f a) tr (.ok b) := by
  rw [runs_check_bind]
  simp

/-- A run of an operation whose answer is a value or an exception, and what follows it. -/
theorem runs_answer_bind {op : O} {get : A op → Except E α} {f : α → Coro O A E β} {tr : Trace O A}
    {r : Except E β} :
    Runs ((ask op >>= fun x => ofExcept (get x)) >>= f) tr r ↔
      (∃ x e, get x = .error e ∧ tr = [⟨op, x⟩] ∧ r = .error e) ∨
        ∃ x a rest, get x = .ok a ∧ tr = ⟨op, x⟩ :: rest ∧ Runs (f a) rest r := by
  change (∃ x rest, tr = ⟨op, x⟩ :: rest ∧ Runs (ofExcept (get x) >>= f) rest r) ↔ _
  constructor
  · rintro ⟨x, rest, rfl, h⟩
    rcases runs_check_bind.1 h with ⟨e, he, rfl, rfl⟩ | ⟨a, ha, h⟩
    · exact .inl ⟨x, e, he, rfl, rfl⟩
    · exact .inr ⟨x, a, rest, ha, rfl, h⟩
  · rintro (⟨x, e, he, rfl, rfl⟩ | ⟨x, a, rest, ha, rfl, h⟩)
    · exact ⟨x, [], rfl, runs_check_bind.2 (.inl ⟨e, he, rfl, rfl⟩)⟩
    · exact ⟨x, rest, rfl, runs_check_bind.2 (.inr ⟨a, ha, h⟩)⟩

/-- A run of a coroutine whose exception is made a value. -/
theorem runs_caught {p : Coro O A E α} {tr : Trace O A} {r : Except E (Except E α)} :
    Runs (tryCatch (p >>= fun a => .ret (.ok a)) fun e => .ret (.error e)) tr r ↔
      ∃ r', r = .ok r' ∧ Runs p tr r' := by
  rw [runs_tryCatch]
  constructor
  · rintro (⟨_, h, rfl⟩ | ⟨e, tr₁, tr₂, rfl, h, rfl, rfl⟩)
    · obtain ⟨a, tr₁, tr₂, rfl, h, rfl, ha⟩ := runs_bind_ok.1 h
      cases ha
      exact ⟨.ok a, rfl, by rwa [List.append_nil]⟩
    · rcases runs_bind.1 h with ⟨e', h, he⟩ | ⟨_, _, _, -, -, -, he⟩
      · cases he
        exact ⟨.error e, rfl, by rwa [List.append_nil]⟩
      · cases he
  · rintro ⟨e | a, rfl, h⟩
    · exact .inr ⟨e, tr, [], (List.append_nil tr).symm, runs_bind.2 (.inl ⟨e, h, rfl⟩), rfl, rfl⟩
    · exact .inl ⟨.ok a, runs_bind_ok.2 ⟨a, tr, [], (List.append_nil tr).symm, h, rfl, rfl⟩, rfl⟩

/-! ## What a coroutine may perform -/

/-- Whatever the answers, the coroutine performs none but operations in `P`. -/
def Only (P : O → Prop) : Coro O A E α → Prop
  | .ret _ | .raise _ => True
  | .await op k => P op ∧ ∀ x, Only P (k x)

theorem only_ask {P : O → Prop} {op : O} (h : P op) : Only P (ask op : Coro O A E (A op)) :=
  ⟨h, fun _ => trivial⟩

theorem only_ofExcept (P : O → Prop) (r : Except E α) :
    Only P (ofExcept r : Coro O A E α) := by
  cases r <;> trivial

theorem Only.bind {P : O → Prop} {p : Coro O A E α} {f : α → Coro O A E β} (hp : Only P p)
    (hf : ∀ a, Only P (f a)) : Only P (p >>= f) := by
  induction p with
  | ret a => exact hf a
  | raise e => trivial
  | await op k ih => exact ⟨hp.1, fun x => ih x (hp.2 x)⟩

theorem Only.check {P : O → Prop} {x : Except E α} {f : α → Coro O A E β}
    (hf : ∀ a, x = .ok a → Only P (f a)) : Only P (ofExcept x >>= f) := by
  cases x with
  | ok a => exact hf a rfl
  | error e => trivial

theorem Only.tryCatch {P : O → Prop} {p : Coro O A E α} {f : E → Coro O A E α} (hp : Only P p)
    (hf : ∀ e, Only P (f e)) : Only P (tryCatch p f) := by
  show Only P (p.tryCatch f)
  induction p with
  | ret a => trivial
  | raise e => exact hf e
  | await op k ih => exact ⟨hp.1, fun x => ih x (hp.2 x)⟩

theorem Only.mono {P Q : O → Prop} {p : Coro O A E α} (hp : Only P p) (h : ∀ op, P op → Q op) :
    Only Q p := by
  induction p with
  | ret a => trivial
  | raise e => trivial
  | await op k ih => exact ⟨h op hp.1, fun x => ih x (hp.2 x)⟩

/-- **The operations of a run** are operations that the coroutine may perform. -/
theorem Only.of_runs {P : O → Prop} {p : Coro O A E α} {tr : Trace O A} {r : Except E α}
    (hp : Only P p) (h : Runs p tr r) : ∀ event ∈ tr, P event.op := by
  induction p generalizing tr with
  | ret a =>
    obtain ⟨rfl, -⟩ := h
    simp
  | raise e =>
    obtain ⟨rfl, -⟩ := h
    simp
  | await op k ih =>
    obtain ⟨x, rest, rfl, h⟩ := h
    intro event hevent
    rcases List.mem_cons.1 hevent with rfl | hevent
    · exact hp.1
    · exact ih x (hp.2 x) h event hevent

/-! ## Checks in front -/

/-- Every run raises after none but operations in `P`, or performs such operations first and goes on
from there as `Q` says. -/
def Leads (P : O → Prop) (Q : Trace O A → Trace O A → Except E α → Prop) (p : Coro O A E α) :
    Prop :=
  ∀ tr r, Runs p tr r →
    ((∃ e, r = .error e) ∧ ∀ event ∈ tr, P event.op) ∨
      ∃ tr₁ tr₂, tr = tr₁ ++ tr₂ ∧ (∀ event ∈ tr₁, P event.op) ∧ Q tr₁ tr₂ r

section
variable {P : O → Prop} {Q : Trace O A → Trace O A → Except E β → Prop} {f : α → Coro O A E β}

theorem leads_raise (e : E) : Leads P Q (.raise e : Coro O A E β) := by
  rintro tr r ⟨rfl, rfl⟩
  exact .inl ⟨⟨e, rfl⟩, by simp⟩

theorem leads_here {p : Coro O A E β} (h : ∀ tr r, Runs p tr r → Q [] tr r) : Leads P Q p :=
  fun tr r hrun => .inr ⟨[], tr, rfl, by simp, h tr r hrun⟩

/-- A first part that does not go beyond `P`; what it did is behind the rest. -/
theorem Leads.bind {p : Coro O A E α} (hp : Only P p)
    (hf : ∀ a tr₁, Runs p tr₁ (.ok a) → Leads P (fun tr tr' r => Q (tr₁ ++ tr) tr' r) (f a)) :
    Leads P Q (p >>= f) := by
  intro tr r h
  rcases runs_bind.1 h with ⟨e, hraise, rfl⟩ | ⟨a, tr₁, tr₂, rfl, h₁, h₂⟩
  · exact .inl ⟨⟨e, rfl⟩, hp.of_runs hraise⟩
  · have hfirst := hp.of_runs h₁
    rcases hf a tr₁ h₁ tr₂ r h₂ with ⟨hraised, hrest⟩ | ⟨tr₃, tr₄, rfl, h₃, h₄⟩
    · exact .inl ⟨hraised, fun event hevent =>
        (List.mem_append.1 hevent).elim (hfirst event) (hrest event)⟩
    · exact .inr ⟨tr₁ ++ tr₃, tr₄, by simp, fun event hevent =>
        (List.mem_append.1 hevent).elim (hfirst event) (h₃ event), h₄⟩

theorem Leads.check {x : Except E α} (hf : ∀ a, x = .ok a → Leads P Q (f a)) :
    Leads P Q (ofExcept x >>= f) := by
  intro tr r h
  rcases runs_check_bind.1 h with ⟨e, -, rfl, rfl⟩ | ⟨a, hx, hrest⟩
  · exact .inl ⟨⟨e, rfl⟩, by simp⟩
  · exact hf a hx tr r hrest

end

/-- A coroutine that performs none but operations in `P`, until it raises or has become one in `Q`. -/
inductive Through (P : O → Prop) (Q : Coro O A E α → Prop) : Coro O A E α → Prop
  | here {p : Coro O A E α} (h : Q p) : Through P Q p
  | raise (e : E) : Through P Q (.raise e)
  | await {op : O} {k : A op → Coro O A E α} (hop : P op) (hk : ∀ x, Through P Q (k x)) :
    Through P Q (.await op k)

section
variable {P : O → Prop} {Q : Coro O A E β → Prop} {f : α → Coro O A E β}

/-- A first part that does not go beyond `P`. -/
theorem Through.bind {p : Coro O A E α} (hp : Only P p) (hf : ∀ a, Through P Q (f a)) :
    Through P Q (p >>= f) := by
  induction p with
  | ret a => exact hf a
  | raise e => exact .raise e
  | await op k ih => exact .await hp.1 fun x => ih x (hp.2 x)

theorem Through.check {x : Except E α} (hf : ∀ a, x = .ok a → Through P Q (f a)) :
    Through P Q (ofExcept x >>= f) := by
  cases x with
  | ok a => exact hf a rfl
  | error e => exact .raise e

/-- **A run through checks** raises in them, or is a run of what they lead to. -/
theorem Through.runs {p : Coro O A E β} {tr : Trace O A} {r : Except E β} (hp : Through P Q p)
    (h : Runs p tr r) :
    ((∃ e, r = .error e) ∧ ∀ event ∈ tr, P event.op) ∨
      ∃ tr₁ tr₂ q, tr = tr₁ ++ tr₂ ∧ (∀ event ∈ tr₁, P event.op) ∧ Q q ∧ Runs q tr₂ r := by
  induction hp generalizing tr with
  | @here p hq => exact .inr ⟨[], tr, p, rfl, by simp, hq, h⟩
  | raise e =>
    obtain ⟨rfl, rfl⟩ := h
    exact .inl ⟨⟨e, rfl⟩, by simp⟩
  | await hop hk ih =>
    obtain ⟨x, rest, rfl, h⟩ := h
    rcases ih x h with ⟨hraised, hquiet⟩ | ⟨tr₁, tr₂, q, rfl, hquiet, hq, hrun⟩
    · exact .inl ⟨hraised, List.forall_mem_cons.2 ⟨hop, hquiet⟩⟩
    · exact .inr ⟨⟨_, x⟩ :: tr₁, tr₂, q, rfl, List.forall_mem_cons.2 ⟨hop, hquiet⟩, hq, hrun⟩

end

/-! ## Environments -/

/-- An environment answers every operation, knowing all that was performed before it. -/
abbrev Env (O : Type) (A : O → Type) := Trace O A → (op : O) → A op

/-- The run against an environment after the events `h`: what it performs, and how it ends. -/
def exec (env : Env O A) : Trace O A → Coro O A E α → Trace O A × Except E α
  | _, .ret a => ([], .ok a)
  | _, .raise e => ([], .error e)
  | h, .await op k =>
    let ev : Event O A := ⟨op, env h op⟩
    let rest := exec env (h ++ [ev]) (k ev.answer)
    (ev :: rest.1, rest.2)

/-- **The run against an environment is a run**: a coroutine finishes against every environment. -/
theorem exec_runs (env : Env O A) (h : Trace O A) (p : Coro O A E α) :
    Runs p (exec env h p).1 (exec env h p).2 := by
  induction p generalizing h with
  | ret a => exact ⟨rfl, rfl⟩
  | raise e => exact ⟨rfl, rfl⟩
  | await op k ih => exact ⟨_, _, rfl, ih _ _⟩

/-- Every answer of the run is one the environment gave. -/
theorem exec_answers {Q : (op : O) → A op → Prop} {env : Env O A} (hQ : ∀ h op, Q op (env h op))
    (h : Trace O A) (p : Coro O A E α) : ∀ event ∈ (exec env h p).1, Q event.op event.answer := by
  induction p generalizing h with
  | ret a => simp [exec]
  | raise e => simp [exec]
  | await op k ih =>
    intro event hevent
    rcases List.mem_cons.1 hevent with rfl | hevent
    · exact hQ h op
    · exact ih _ _ event hevent

end Coro

end TradeStation.Foundations
