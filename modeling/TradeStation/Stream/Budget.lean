import TradeStation.Foundations.Transition
import TradeStation.Stream.Session

/-!
# The reconnect budget

An abstract session: it is about to open a connection, it runs one, or it has ended, and it counts
its reconnects. `Turn` says what each action does to that, for a budget `m`. The log of `events` is
a path of the abstract session (`events_path`), and everything that is said of a budget is read off
such paths.

* `counter_le`: the counter stays within the budget.
* `opens_le`: without progress, no more than `m + 1` connections are opened.
* `slept_once`: between two opens there is one sleep.
* `ended_last`: nothing follows a clean end, or an exception that is not retried.
-/

namespace TradeStation.Stream

open Foundations

section
variable {σ : Type}

/-! ## Actions -/

namespace Action

/-- `opened`. -/
def isOpened : Action σ → Bool
  | .opened _ => true
  | _ => false

/-- A sleep that was not cut short by an exception. -/
def isSlept : Action σ → Bool
  | .slept _ _ => true
  | _ => false

/-- An event that is not a GoAway. -/
def isProgress : Action σ → Bool
  | .yielded event => event.kind ≠ .goAway
  | _ => false

/-- The counter, as far as an action shows it. -/
def counter : Action σ → ℕ
  | .opened reconnects | .slept reconnects _ | .sleepFailed reconnects _ => reconnects
  | _ => 0

end Action

/-- The exceptions behind which no connection may be opened: a stream error or parse error, an
authentication or configuration error, a 4xx other than 429. -/
def NotRetried : Exc → Prop
  | .stream _ _ | .streamParse _ | .authentication _ _ _ _ | .configuration _ => True
  | .api statusCode _ _ _ => 400 ≤ statusCode ∧ statusCode < 500 ∧ statusCode ≠ 429
  | _ => False

/-- The actions behind which no connection may be opened. -/
def Action.IsLast : Action σ → Prop
  | .ended => True
  | .failed exc => NotRetried exc
  | _ => False

theorem handling_notRetried {exc : Exc} (h : NotRetried exc) : handling exc = .propagate := by
  cases exc with
  | stream | streamParse | authentication | configuration => rfl
  | api statusCode error message payload =>
    obtain ⟨h400, h500, -⟩ := h
    exact if_pos ⟨h400, h500⟩
  | _ => cases h

/-! ## The abstract session -/

/-- Where a session is. -/
inductive Phase
  | idle (reconnects : ℕ)
  | running (reconnects : ℕ)
  | over

/-- What an action does, with a budget of `m` reconnects. -/
inductive Turn (m : ℕ) : Phase → Action σ → Phase → Prop
  | opened (r : ℕ) : Turn m (.idle r) (.opened r) (.running r)
  | source (r : ℕ) (effect : σ) : Turn m (.running r) (.source effect) (.running r)
  | goAway (r : ℕ) (event : StreamEvent) (h : event.kind = .goAway) :
    Turn m (.running r) (.yielded event) (.running r)
  | progress (r : ℕ) (event : StreamEvent) (h : event.kind ≠ .goAway) :
    Turn m (.running r) (.yielded event) (.running 0)
  | ended (r : ℕ) : Turn m (.running r) .ended .over
  | raised (r : ℕ) (exc : Exc) : Turn m (.running r) (.failed exc) .over
  | caught (r : ℕ) (exc : Exc) (h : ¬ NotRetried exc) :
    Turn m (.running r) (.failed exc) (.running r)
  | slept (r : ℕ) (delaySeconds : ℚ) (h : r < m) :
    Turn m (.running r) (.slept (r + 1) delaySeconds) (.idle (r + 1))
  | sleepFailed (r : ℕ) (exc : Exc) (h : r < m) :
    Turn m (.running r) (.sleepFailed (r + 1) exc) (.running (r + 1))

namespace Phase

/-- The counter is within the budget. -/
def Within (m : ℕ) : Phase → Prop
  | .idle r | .running r => r ≤ m
  | .over => True

/-- How many connections may be opened without progress. -/
def openable (m : ℕ) : Phase → ℕ
  | .idle r => m - r + 1
  | .running r => m - r
  | .over => 0

/-- Whether the next action opens a connection. -/
def ready : Phase → ℕ
  | .idle _ => 1
  | _ => 0

end Phase

variable {m : ℕ} {p p' : Phase} {action : Action σ} {log : List (Action σ)}

theorem Turn.within (h : Turn m p action p') (hp : p.Within m) : p'.Within m := by
  cases h with
  | opened | source | goAway | caught => exact hp
  | progress => exact Nat.zero_le m
  | ended | raised => trivial
  | slept _ _ h | sleepFailed _ _ h => exact h

theorem Turn.counter_le (h : Turn m p action p') (hp : p.Within m) : action.counter ≤ m := by
  cases h with
  | opened => exact hp
  | slept _ _ h | sleepFailed _ _ h => exact h
  | _ => exact Nat.zero_le m

/-- Without progress, an open uses up one of the connections that may be opened. -/
theorem Turn.openable (h : Turn m p action p') (hprogress : action.isProgress = false) :
    p'.openable m + (if action.isOpened then 1 else 0) ≤ p.openable m := by
  cases h with
  | progress _ _ h => simp [Action.isProgress, h] at hprogress
  | _ => simp [Phase.openable, Action.isOpened]; try omega

/-- A sleep makes a session ready to open, and an open uses that up. -/
theorem Turn.ready (h : Turn m p action p') :
    p'.ready + (if action.isOpened then 1 else 0) = p.ready + if action.isSlept then 1 else 0 := by
  cases h <;> rfl

theorem Turn.over_of_isLast (h : Turn m p action p') (hlast : action.IsLast) : p' = .over := by
  cases h with
  | ended | raised => rfl
  | caught _ _ h => exact absurd hlast h
  | _ => cases hlast

theorem Phase.openable_le (m : ℕ) (p : Phase) : p.openable m ≤ m + 1 := by
  cases p <;> simp only [openable] <;> omega

/-! ## What holds on a path -/

theorem counter_le (h : Path (Turn m) p log p') (hp : p.Within m) :
    ∀ action ∈ log, action.counter ≤ m := by
  induction h with
  | nil => simp
  | cons head _ ih =>
    intro action haction
    rcases List.mem_cons.1 haction with rfl | haction
    · exact head.counter_le hp
    · exact ih (head.within hp) action haction

/-- Without progress, no more than `m + 1` connections are opened. -/
theorem opens_le (h : Path (Turn m) p log p') (hlog : ∀ action ∈ log, action.isProgress = false) :
    log.countP Action.isOpened ≤ m + 1 := by
  have haccount := h.account (fun action => action.isProgress = false) (Phase.openable m)
    (fun _ => false) Action.isOpened hlog fun hturn hprogress => by
      simpa using hturn.openable hprogress
  have hle := p.openable_le m
  have hgains : log.countP (fun _ => false) = 0 := List.countP_eq_zero.2 (by simp)
  omega

/-- Between two opens there is one sleep. -/
theorem slept_once {r r' : ℕ} (h : Path (Turn m) (.running r) log (.idle r'))
    (hlog : log.countP Action.isOpened = 0) : log.countP Action.isSlept = 1 := by
  have hbalance := h.balance (fun _ => True) Phase.ready Action.isSlept Action.isOpened
    (fun _ _ => trivial) fun hturn _ => hturn.ready
  simp only [Phase.ready] at hbalance
  omega

/-- Nothing follows the end. -/
theorem ended_last (h : Path (Turn m) p (action :: log) p') (hlast : action.IsLast) : log = [] := by
  obtain ⟨p₁, hhead, htail⟩ := path_cons.1 h
  rw [hhead.over_of_isLast hlast] at htail
  cases htail with
  | nil => rfl
  | cons head _ => cases head

/-! ## The log of a session is a path -/

theorem emit_path (m : ℕ) (raiseOnError : Bool) (reconnects : ℕ) (messages : List Python.Json.Dict) :
    Path (Turn (σ := σ) m) (.running reconnects) (emit raiseOnError reconnects messages).1
      (.running (emit (σ := σ) raiseOnError reconnects messages).2.1) := by
  induction messages generalizing reconnects with
  | nil => exact .nil _
  | cons payload messages ih =>
    rw [emit]
    simp only
    split_ifs with herror hgo
    · exact .nil _
    · exact .single (.goAway reconnects _ hgo)
    · exact .cons (.progress reconnects _ hgo) (ih 0)

theorem consume_path (m : ℕ) (raiseOnError : Bool) (parser : JsonStreamParser) (reconnects : ℕ)
    (failure : Option Exc) (steps : List (σ ⊕ Chunk)) :
    Path (Turn m) (.running reconnects) (consume raiseOnError parser reconnects failure steps).1
      (.running (consume raiseOnError parser reconnects failure steps).2.1) := by
  induction steps generalizing parser reconnects with
  | nil => cases failure <;> exact .nil _
  | cons step steps ih =>
    cases step with
    | inl effect => exact .cons (.source reconnects effect) (ih parser reconnects)
    | inr chunk =>
      rw [consume]
      rcases parser.feed chunk with ⟨exc | messages, parser'⟩
      · exact .nil _
      · have hemit := emit_path (σ := σ) m raiseOnError reconnects messages
        rcases hmessages : emit (σ := σ) raiseOnError reconnects messages with
          ⟨actions, reconnects', _ | stop⟩ <;> rw [hmessages] at hemit
        · simpa only [hmessages] using hemit.append (ih parser' reconnects')
        · simpa only [hmessages] using hemit

/-- How the loop goes on: with the next connection, or not at all. -/
def Goes : Outcome ⊕ ℕ → Phase → Prop
  | .inl _, _ => True
  | .inr reconnects, p => p = .idle reconnects

theorem onException_path (policy : StreamReconnectPolicy) (sleep : Option Exc) (reconnects : ℕ)
    (exc : Exc) :
    ∃ p, Path (Turn policy.maxReconnects.toNat) (.running reconnects)
        (onException (σ := σ) policy sleep reconnects exc).1 p ∧
      Goes (onException (σ := σ) policy sleep reconnects exc).2 p := by
  rcases onException_cases (σ := σ) policy sleep reconnects exc with
    h | ⟨hbudget, hhandling, ⟨delay, h⟩ | ⟨exc', h⟩⟩ <;> rw [h]
  · exact ⟨.over, .single (.raised reconnects exc), trivial⟩
  all_goals
    have hcaught : ¬ NotRetried exc := fun hexc => hhandling (handling_notRetried hexc)
  · exact ⟨_, .cons (.caught reconnects exc hcaught) (.single (.slept reconnects delay (by omega))),
      rfl⟩
  · exact ⟨_, .cons (.caught reconnects exc hcaught)
      (.single (.sleepFailed reconnects exc' (by omega))), trivial⟩

theorem afterConnection_path (policy : StreamReconnectPolicy) (connection : Connection σ)
    (reconnects : ℕ) (stop : Stop) :
    ∃ p, Path (Turn policy.maxReconnects.toNat) (.running reconnects)
        (afterConnection policy connection reconnects stop).1 p ∧
      Goes (afterConnection policy connection reconnects stop).2 p := by
  cases stop with
  | closed => exact ⟨.over, .single (.ended reconnects), trivial⟩
  | failed exc => exact onException_path policy connection.sleep reconnects exc
  | goAway =>
    rcases afterConnection_goAway policy connection reconnects with
      h | ⟨hbudget, ⟨delay, h⟩ | ⟨exc, h⟩⟩ <;> rw [h]
    · exact ⟨_, .nil _, trivial⟩
    · exact ⟨_, .single (.slept reconnects delay (by omega)), rfl⟩
    · obtain ⟨p, hpath, hgoes⟩ :=
        onException_path (σ := σ) policy connection.sleepAgain (reconnects + 1) exc
      exact ⟨p, .cons (.sleepFailed reconnects exc (by omega)) hpath, hgoes⟩

namespace TradeStationStream

variable (stream : TradeStationStream)

theorem connect_path (reconnects : ℕ) (connection : Connection σ) :
    ∃ p, Path (Turn stream.reconnectPolicy.maxReconnects.toNat) (.idle reconnects)
        (stream.connect reconnects connection).1 p ∧
      Goes (stream.connect reconnects connection).2 p := by
  have hpath := consume_path stream.reconnectPolicy.maxReconnects.toNat stream.raiseOnError .init
    reconnects connection.failure connection.steps
  rcases hconsume : consume stream.raiseOnError .init reconnects connection.failure connection.steps
    with ⟨actions, reconnects', stop⟩
  rw [hconsume] at hpath
  rw [stream.connect_eq reconnects connection hconsume]
  obtain ⟨p, hafter, hgoes⟩ :=
    afterConnection_path stream.reconnectPolicy connection reconnects' stop
  exact ⟨p, .cons (.opened reconnects) (hpath.append hafter), hgoes⟩

theorem run_path (reconnects : ℕ) (connections : List (Connection σ)) :
    ∃ p, Path (Turn stream.reconnectPolicy.maxReconnects.toNat) (.idle reconnects)
      (stream.run reconnects connections).1 p := by
  induction connections generalizing reconnects with
  | nil => exact ⟨_, .nil _⟩
  | cons connection connections ih =>
    obtain ⟨p, hconnect, hgoes⟩ := stream.connect_path reconnects connection
    rw [run]
    rcases hc : stream.connect reconnects connection with ⟨actions, outcome | reconnects'⟩ <;>
      rw [hc] at hconnect hgoes
    · exact ⟨p, hconnect⟩
    · obtain rfl : p = .idle reconnects' := hgoes
      obtain ⟨p', hrun⟩ := ih reconnects'
      exact ⟨p', hconnect.append hrun⟩

/-- **The log of a session is a path of the abstract session.** -/
theorem events_path (connections : List (Connection σ)) :
    ∃ p, Path (Turn stream.reconnectPolicy.maxReconnects.toNat) (.idle 0)
      (stream.events connections).1 p :=
  stream.run_path 0 connections

end TradeStationStream

/-- A log keeps to a budget of `m` reconnects. -/
structure BudgetRespected (m : ℕ) (log : List (Action σ)) : Prop where
  counter : ∀ action ∈ log, action.counter ≤ m
  opens : ∀ segment, segment <:+: log → (∀ action ∈ segment, action.isProgress = false) →
    segment.countP Action.isOpened ≤ m + 1
  sleeps : ∀ before r between r' after,
    log = before ++ .opened r :: (between ++ .opened r' :: after) →
    between.countP Action.isOpened = 0 → between.countP Action.isSlept = 1
  last : ∀ before action after, log = before ++ action :: after → action.IsLast →
    after.countP Action.isOpened = 0

theorem BudgetRespected.of_path {r : ℕ} (hr : r ≤ m) (h : Path (Turn m) (.idle r) log p') :
    BudgetRespected m log := by
  refine ⟨counter_le h hr, ?_, ?_, ?_⟩
  · rintro segment ⟨before, after, rfl⟩ hprogress
    rw [List.append_assoc] at h
    obtain ⟨p₁, -, h⟩ := path_append.1 h
    obtain ⟨p₂, h, -⟩ := path_append.1 h
    exact opens_le h hprogress
  · rintro before r between r' after rfl hopens
    obtain ⟨p₁, -, h⟩ := path_append.1 h
    obtain ⟨p₂, hopened, h⟩ := path_cons.1 h
    obtain ⟨p₃, hbetween, h⟩ := path_append.1 h
    obtain ⟨p₄, hopened', -⟩ := path_cons.1 h
    cases hopened
    cases hopened'
    exact slept_once hbetween hopens
  · rintro before action after rfl hlast
    obtain ⟨p₁, -, h⟩ := path_append.1 h
    rw [ended_last h hlast]
    rfl

end

end TradeStation.Stream
