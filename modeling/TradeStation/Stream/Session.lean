import TradeStation.RateLimit
import TradeStation.Stream.Parser

/-!
# The stream session

`TradeStationStream.events` as a function of what the connections do. Each connection is a list of
steps of its source, a chunk or an effect of the source itself, and a way to end. The session
answers with the list of its actions, in order, and with its outcome: it has returned, it has
raised, or it waits for a connection beyond those given.

A connection ends the inner loops by closing, by a GoAway, or by an exception; `afterConnection`
and `onException` are what the rest of the loop body and its `except` clauses make of that. A sleep
behind a GoAway is inside the `try`, so its own exception goes through the clauses as well.
-/

namespace TradeStation.Stream

open Python

/-- `StreamReconnectPolicy`, less the sleeper. -/
structure StreamReconnectPolicy where
  maxReconnects : ℤ := 3
  baseDelaySeconds : ℚ := 1 / 4
  maxDelaySeconds : ℚ := 5
  retryAfterCeilingSeconds : ℚ := 300

/-- `StreamReconnectPolicy.delay_for_reconnect`; `none` where it raises `OverflowError`. -/
def StreamReconnectPolicy.delayForReconnect (policy : StreamReconnectPolicy)
    (reconnectNumber : ℕ) (retryAfterSeconds : Option ℚ) : Option ℚ :=
  match retryAfterSeconds with
  | some retryAfter => some (min (max 0 retryAfter) policy.retryAfterCeilingSeconds)
  | none =>
    (backoff policy.baseDelaySeconds policy.maxDelaySeconds (reconnectNumber - 1)).map (max 0)

/-- `TradeStationStream`, less the chunk source. -/
structure TradeStationStream where
  reconnectPolicy : StreamReconnectPolicy := {}
  raiseOnError : Bool := true

/-- A connection: the steps of its source, the exception the source then raises if it does not
close, and the exceptions that a first and a second sleep behind it raise if they do. -/
structure Connection (σ : Type) where
  steps : List (σ ⊕ Chunk)
  failure : Option Exc := none
  sleep : Option Exc := none
  sleepAgain : Option Exc := none

/-- An action of a session. -/
inductive Action (σ : Type)
  /-- A connection was opened, with this many reconnects on the counter. -/
  | opened (reconnects : ℕ)
  | source (effect : σ)
  | yielded (event : StreamEvent)
  /-- A connection closed without a GoAway. -/
  | ended
  /-- An exception reached the `except` clauses. -/
  | failed (exc : Exc)
  | slept (reconnects : ℕ) (delaySeconds : ℚ)
  | sleepFailed (reconnects : ℕ) (exc : Exc)

/-- How a session stands. -/
inductive Outcome
  | returned
  | raised (exc : Exc)
  | waiting

/-- What ended the inner loops. -/
inductive Stop
  | closed
  | goAway
  | failed (exc : Exc)

/-- What the `except` clauses do with an exception. -/
inductive Handling
  | propagate
  | reconnect (retryAfterSeconds : Option ℚ)

/-- The `except` clauses, in order. -/
def handling : Exc → Handling
  | .stream _ _ | .streamParse _ => .propagate
  | .authentication _ _ _ _ | .configuration _ => .propagate
  | .rateLimit _ _ _ _ retryAfterSeconds => .reconnect retryAfterSeconds
  | .api statusCode _ _ _ =>
    if 400 ≤ statusCode ∧ statusCode < 500 then .propagate else .reconnect none
  | .base => .propagate
  | _ => .reconnect none

section
variable {σ : Type}

/-- The inner loop over the messages of a chunk: the actions, the counter, and whether the
connection is done with. -/
def emit (raiseOnError : Bool) (reconnects : ℕ) :
    List Json.Dict → List (Action σ) × ℕ × Option Stop
  | [] => ([], reconnects, none)
  | payload :: messages =>
    let event := classifyStreamMessage payload
    if raiseOnError ∧ event.kind = .error then
      ([], reconnects,
        some (.failed (.stream (str "TradeStation stream returned an error") (some payload))))
    else if event.kind = .goAway then ([.yielded event], reconnects, some .goAway)
    else
      let (actions, rest) := emit raiseOnError 0 messages
      (.yielded event :: actions, rest)

/-- The loop over the steps of a connection. -/
def consume (raiseOnError : Bool) (parser : JsonStreamParser) (reconnects : ℕ)
    (failure : Option Exc) : List (σ ⊕ Chunk) → List (Action σ) × ℕ × Stop
  | [] =>
    match failure with
    | none => ([], reconnects, .closed)
    | some exc => ([], reconnects, .failed exc)
  | .inl effect :: steps =>
    let (actions, rest) := consume raiseOnError parser reconnects failure steps
    (.source effect :: actions, rest)
  | .inr chunk :: steps =>
    match parser.feed chunk with
    | (.error exc, _) => ([], reconnects, .failed exc)
    | (.ok messages, parser) =>
      match emit raiseOnError reconnects messages with
      | (actions, reconnects, some stop) => (actions, reconnects, stop)
      | (actions, reconnects, none) =>
        let (actions', rest) := consume raiseOnError parser reconnects failure steps
        (actions ++ actions', rest)

/-- `_sleep_for_reconnect`: the action, and the exception if there is one. -/
def sleepForReconnect (policy : StreamReconnectPolicy) (sleep : Option Exc)
    (reconnectNumber : ℕ) (retryAfterSeconds : Option ℚ) : Action σ × Option Exc :=
  match policy.delayForReconnect reconnectNumber retryAfterSeconds with
  | none => (.sleepFailed reconnectNumber .overflow, some .overflow)
  | some delay =>
    match sleep with
    | some exc => (.sleepFailed reconnectNumber exc, some exc)
    | none => (.slept reconnectNumber delay, none)

/-- An exception in the `try`: the actions, and the outcome or the counter to go on with. -/
def onException (policy : StreamReconnectPolicy) (sleep : Option Exc) (reconnects : ℕ)
    (exc : Exc) : List (Action σ) × (Outcome ⊕ ℕ) :=
  match handling exc with
  | .propagate => ([.failed exc], .inl (.raised exc))
  | .reconnect retryAfterSeconds =>
    if policy.maxReconnects ≤ reconnects then ([.failed exc], .inl (.raised exc))
    else
      match sleepForReconnect policy sleep (reconnects + 1) retryAfterSeconds with
      | (action, none) => ([.failed exc, action], .inr (reconnects + 1))
      | (action, some exc') => ([.failed exc, action], .inl (.raised exc'))

/-- The loop body behind the inner loops. -/
def afterConnection (policy : StreamReconnectPolicy) (connection : Connection σ)
    (reconnects : ℕ) : Stop → List (Action σ) × (Outcome ⊕ ℕ)
  | .closed => ([.ended], .inl .returned)
  | .goAway =>
    if policy.maxReconnects ≤ reconnects then ([], .inl .returned)
    else
      match sleepForReconnect policy connection.sleep (reconnects + 1) none with
      | (action, none) => ([action], .inr (reconnects + 1))
      | (action, some exc) =>
        let (actions, rest) := onException policy connection.sleepAgain (reconnects + 1) exc
        (action :: actions, rest)
  | .failed exc => onException policy connection.sleep reconnects exc

/-! ## What a connection leaves behind -/

theorem sleepForReconnect_cases (policy : StreamReconnectPolicy) (sleep : Option Exc)
    (reconnectNumber : ℕ) (retryAfterSeconds : Option ℚ) :
    (∃ delay, sleepForReconnect (σ := σ) policy sleep reconnectNumber retryAfterSeconds =
      (.slept reconnectNumber delay, none)) ∨
    ∃ exc, sleepForReconnect (σ := σ) policy sleep reconnectNumber retryAfterSeconds =
      (.sleepFailed reconnectNumber exc, some exc) := by
  unfold sleepForReconnect
  split
  · exact .inr ⟨_, rfl⟩
  · cases sleep with
    | none => exact .inl ⟨_, rfl⟩
    | some exc => exact .inr ⟨exc, rfl⟩

/-- An exception is raised, or there is one more reconnect and a sleep for it, which may raise. -/
theorem onException_cases (policy : StreamReconnectPolicy) (sleep : Option Exc) (reconnects : ℕ)
    (exc : Exc) :
    onException (σ := σ) policy sleep reconnects exc = ([.failed exc], .inl (.raised exc)) ∨
    ((reconnects : ℤ) < policy.maxReconnects ∧ handling exc ≠ .propagate ∧
      ((∃ delay, onException (σ := σ) policy sleep reconnects exc =
          ([.failed exc, .slept (reconnects + 1) delay], .inr (reconnects + 1))) ∨
        ∃ exc', onException (σ := σ) policy sleep reconnects exc =
          ([.failed exc, .sleepFailed (reconnects + 1) exc'], .inl (.raised exc')))) := by
  unfold onException
  cases hhandling : handling exc with
  | propagate => exact .inl rfl
  | reconnect retryAfterSeconds =>
    by_cases hbudget : policy.maxReconnects ≤ reconnects
    · exact .inl (by simp [hbudget])
    · refine .inr ⟨by omega, by simp, ?_⟩
      simp only [if_neg hbudget]
      rcases sleepForReconnect_cases (σ := σ) policy sleep (reconnects + 1) retryAfterSeconds with
        ⟨delay, hsleep⟩ | ⟨exc', hsleep⟩
      · exact .inl ⟨delay, by rw [hsleep]⟩
      · exact .inr ⟨exc', by rw [hsleep]⟩

/-- Behind a GoAway the session returns, or there is one more reconnect and a sleep for it; what
that sleep raises is an exception in the `try`. -/
theorem afterConnection_goAway (policy : StreamReconnectPolicy) (connection : Connection σ)
    (reconnects : ℕ) :
    afterConnection policy connection reconnects .goAway = ([], .inl .returned) ∨
    ((reconnects : ℤ) < policy.maxReconnects ∧
      ((∃ delay, afterConnection policy connection reconnects .goAway =
          ([.slept (reconnects + 1) delay], .inr (reconnects + 1))) ∨
        ∃ exc, afterConnection policy connection reconnects .goAway =
          (.sleepFailed (reconnects + 1) exc ::
              (onException policy connection.sleepAgain (reconnects + 1) exc).1,
            (onException (σ := σ) policy connection.sleepAgain (reconnects + 1) exc).2))) := by
  unfold afterConnection
  by_cases hbudget : policy.maxReconnects ≤ reconnects
  · exact .inl (by simp [hbudget])
  · refine .inr ⟨by omega, ?_⟩
    simp only [if_neg hbudget]
    rcases sleepForReconnect_cases (σ := σ) policy connection.sleep (reconnects + 1) none with
      ⟨delay, hsleep⟩ | ⟨exc, hsleep⟩
    · exact .inl ⟨delay, by rw [hsleep]⟩
    · exact .inr ⟨exc, by rw [hsleep]⟩

/-- The actions of the loop body behind the inner loops. -/
def Action.isBehind : Action σ → Bool
  | .ended | .failed _ | .slept _ _ | .sleepFailed _ _ => true
  | .opened _ | .source _ | .yielded _ => false

theorem onException_isBehind (policy : StreamReconnectPolicy) (sleep : Option Exc)
    (reconnects : ℕ) (exc : Exc) :
    ∀ action ∈ (onException (σ := σ) policy sleep reconnects exc).1, action.isBehind := by
  rcases onException_cases (σ := σ) policy sleep reconnects exc with
    h | ⟨-, -, ⟨_, h⟩ | ⟨_, h⟩⟩ <;> rw [h] <;> simp [Action.isBehind]

theorem afterConnection_isBehind (policy : StreamReconnectPolicy) (connection : Connection σ)
    (reconnects : ℕ) (stop : Stop) :
    ∀ action ∈ (afterConnection policy connection reconnects stop).1, action.isBehind := by
  cases stop with
  | closed => simp [afterConnection, Action.isBehind]
  | failed exc => exact onException_isBehind policy connection.sleep reconnects exc
  | goAway =>
    rcases afterConnection_goAway policy connection reconnects with
      h | ⟨-, ⟨_, h⟩ | ⟨exc, h⟩⟩ <;> rw [h]
    · simp
    · simp [Action.isBehind]
    · intro action haction
      rcases List.mem_cons.1 haction with rfl | haction
      · rfl
      · exact onException_isBehind policy connection.sleepAgain (reconnects + 1) exc action haction

namespace TradeStationStream

variable (stream : TradeStationStream)

/-- One turn of the loop of `events`, from one open to the next. -/
def connect (reconnects : ℕ) (connection : Connection σ) : List (Action σ) × (Outcome ⊕ ℕ) :=
  let (actions, reconnects', stop) :=
    consume stream.raiseOnError .init reconnects connection.failure connection.steps
  let (actions', rest) := afterConnection stream.reconnectPolicy connection reconnects' stop
  (.opened reconnects :: (actions ++ actions'), rest)

theorem connect_eq (reconnects : ℕ) (connection : Connection σ) {actions : List (Action σ)}
    {reconnects' : ℕ} {stop : Stop}
    (h : consume stream.raiseOnError .init reconnects connection.failure connection.steps =
      (actions, reconnects', stop)) :
    stream.connect reconnects connection =
      (.opened reconnects ::
          (actions ++ (afterConnection stream.reconnectPolicy connection reconnects' stop).1),
        (afterConnection stream.reconnectPolicy connection reconnects' stop).2) := by
  rw [connect, h]

/-- The loop of `events`. -/
def run (reconnects : ℕ) : List (Connection σ) → List (Action σ) × Outcome
  | [] => ([], .waiting)
  | connection :: connections =>
    match stream.connect reconnects connection with
    | (actions, .inl outcome) => (actions, outcome)
    | (actions, .inr reconnects') =>
      let (actions', outcome) := run reconnects' connections
      (actions ++ actions', outcome)

/-- `TradeStationStream.events`. -/
def events (connections : List (Connection σ)) : List (Action σ) × Outcome :=
  stream.run 0 connections

end TradeStationStream

end

end TradeStation.Stream
