import TradeStation.Auth.Manager
import TradeStation.Foundations.Pool

/-!
# What managers share

Any number of managers with one token store. A call performs an operation in one step: the store is
atomic, the lock is the manager's own, the token endpoint answers as it likes, and the clock moves
between the steps.
-/

namespace TradeStation

open Python Foundations

/-- The token store, the clock in microseconds, and which managers' locks are held. -/
structure TokenWorld (M : Type) where
  store : MemoryTokenStore.Stored
  clock : ℤ
  locked : M → Bool

/-- The time that `datetime.now(UTC)` tells. -/
def TokenWorld.now {M : Type} (w : TokenWorld M) : Datetime := .utc w.clock

/-- A call of the manager `owner i` performs an operation. -/
inductive Performs {M I : Type} [DecidableEq M] (owner : I → M) (i : I) (w : TokenWorld M) :
    (op : TokenOp) → op.Answer → TokenWorld M → Prop
  | acquire (h : w.locked (owner i) = false) :
    Performs owner i w .acquire ()
      { w with locked := Function.update w.locked (owner i) true }
  | release :
    Performs owner i w .release ()
      { w with locked := Function.update w.locked (owner i) false }
  | load (stored : MemoryTokenStore.Stored) (h : stored = w.store) :
    Performs owner i w .load stored w
  | save (token : OAuthToken) : Performs owner i w (.save token) () { w with store := some token }
  | swap (expected : Option PyStr) (replacement : OAuthToken) (swapped : Bool)
      (store : MemoryTokenStore.Stored)
      (h : MemoryTokenStore.compareAndSwapRefreshToken w.store expected replacement =
        (swapped, store)) :
    Performs owner i w (.compareAndSwapRefreshToken expected replacement) swapped
      { w with store }
  | send (request : HTTPRequest) (answer : Except Exc HTTPResponse) :
    Performs owner i w (.send request) answer w
  | now (t : Datetime) (h : t = w.now) : Performs owner i w .now t w

/-- The clock moves as it is allowed to. -/
def Drifts {M : Type} (allowed : ℤ → ℤ → Prop) (w w' : TokenWorld M) : Prop :=
  ∃ clock, allowed w.clock clock ∧ w' = { w with clock }

/-- Coroutines of managers, and what they share. -/
abbrev TokenPool (M I α : Type) := Pool (TokenWorld M) I TokenOp TokenOp.Answer Exc α

/-- What happens in a pool, in order. -/
abbrev TokenLog (I : Type) := List (Pool.Label I TokenOp TokenOp.Answer)

/-- A step of a pool whose clock moves as it is allowed to. -/
abbrev TokenStep {M I α : Type} [DecidableEq M] [DecidableEq I] (owner : I → M)
    (allowed : ℤ → ℤ → Prop) :
    TokenPool M I α → Pool.Label I TokenOp TokenOp.Answer → TokenPool M I α → Prop :=
  Pool.Step (Performs owner) (Drifts allowed)

/-- The event puts a token into the store. -/
def Stores (event : Event TokenOp TokenOp.Answer) (token : OAuthToken) : Prop :=
  event = ⟨.save token, ()⟩ ∨
    ∃ expected, event = ⟨.compareAndSwapRefreshToken expected token, true⟩

section
variable {M I : Type} [DecidableEq M] {owner : I → M} {i : I} {w w' : TokenWorld M}

theorem compareAndSwap_true {stored store : MemoryTokenStore.Stored} {expected : Option PyStr}
    {replacement : OAuthToken}
    (h : MemoryTokenStore.compareAndSwapRefreshToken stored expected replacement = (true, store)) :
    stored.bind OAuthToken.refreshToken = expected ∧ store = some replacement := by
  unfold MemoryTokenStore.compareAndSwapRefreshToken at h
  split_ifs at h with hne
  · cases h
  · cases h
    exact ⟨not_not.1 hne, rfl⟩

theorem compareAndSwap_false {stored store : MemoryTokenStore.Stored} {expected : Option PyStr}
    {replacement : OAuthToken}
    (h : MemoryTokenStore.compareAndSwapRefreshToken stored expected replacement = (false, store)) :
    store = stored := by
  unfold MemoryTokenStore.compareAndSwapRefreshToken at h
  split_ifs at h
  · cases h
    rfl
  · cases h

theorem Performs.loaded {stored : MemoryTokenStore.Stored} (h : Performs owner i w .load stored w') :
    stored = w.store ∧ w' = w := by
  cases h with
  | load _ hstored => exact ⟨hstored, rfl⟩

theorem Performs.swapped {expected : Option PyStr} {replacement : OAuthToken}
    (h : Performs owner i w (.compareAndSwapRefreshToken expected replacement) true w') :
    w.store.bind OAuthToken.refreshToken = expected ∧ w'.store = some replacement := by
  cases h with
  | swap _ _ _ _ hswap => exact compareAndSwap_true hswap

/-- An event that stores a token leaves it in the store. -/
theorem Performs.stored {op : TokenOp} {x : op.Answer} {token : OAuthToken}
    (h : Performs owner i w op x w') (hstores : Stores ⟨op, x⟩ token) :
    w'.store = some token := by
  rcases hstores with heq | ⟨expected, heq⟩
  · cases heq
    cases h
    rfl
  · cases heq
    exact h.swapped.2

/-- Any other event leaves the store as it is. -/
theorem Performs.unchanged {op : TokenOp} {x : op.Answer} (h : Performs owner i w op x w')
    (hstores : ∀ token, ¬Stores ⟨op, x⟩ token) : w'.store = w.store := by
  cases h with
  | acquire | release | load | send | now => rfl
  | save token => exact absurd (.inl rfl) (hstores token)
  | swap expected replacement swapped store hswap =>
    cases swapped with
    | true => exact absurd (.inr ⟨expected, rfl⟩) (hstores replacement)
    | false => exact compareAndSwap_false hswap

/-- A store that holds a token goes on to hold one. -/
theorem Performs.keeps_some {op : TokenOp} {x : op.Answer} (h : Performs owner i w op x w')
    (hsome : w.store ≠ none) : w'.store ≠ none := by
  by_cases hstores : ∃ token, Stores ⟨op, x⟩ token
  · obtain ⟨token, hstores⟩ := hstores
    rw [h.stored hstores]
    simp
  · rw [h.unchanged (not_exists.1 hstores)]
    exact hsome

variable [DecidableEq I] {α : Type} {allowed : ℤ → ℤ → Prop}

/-- A call performs its next operation. -/
theorem tokenStep_of_performs {s : TokenPool M I α} (i : I) (event : Event TokenOp TokenOp.Answer)
    {k : TokenOp.Answer event.op → TokenProgram α} (htask : s.task i = .await event.op k)
    (h : Performs owner i s.shared event.op event.answer w) :
    TokenStep owner allowed s (some (i, event)) ⟨w, Function.update s.task i (k event.answer)⟩ :=
  .perform i event.answer htask h

theorem path_keeps_some {s s' : TokenPool M I α} {log : TokenLog I}
    (h : Path (TokenStep owner allowed) s log s') (hsome : s.shared.store ≠ none) :
    s'.shared.store ≠ none := by
  refine h.invariant (I := fun s => s.shared.store ≠ none) (fun _ => True) (fun _ _ => trivial)
    (fun hstep _ hs => ?_) hsome
  cases hstep with
  | perform j x htask hperform => exact hperform.keeps_some hs
  | drift hdrift =>
    obtain ⟨clock, -, rfl⟩ := hdrift
    exact hs

end

end TradeStation
