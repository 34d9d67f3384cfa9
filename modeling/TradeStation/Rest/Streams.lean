import TradeStation.Rest.Client
import TradeStation.Stream.Budget

/-!
# Streams of the REST client

`_stream_chunks` is the source of a connection: it opens a stream with the token it is given, and
if the open is answered by 401 it refreshes the token and opens once more. `stream_events` runs a
session on such sources, with a reconnect for every retry of the retry policy but the first.

* `streamLoop_path`: the effects of one source are those of an abstract open, `Attempt`.
* `events_attempts`: so the log of a session is a path of `Attempt`, which starts anew with each
  connection.
* `reconnect_budget`: what a session opens, sleeps and sends, in every run.
-/

namespace TradeStation

open Python Foundations TradeStation.Stream

/-- An effect of `_stream_chunks`. -/
inductive StreamEffect
  | getAccessToken
  | request (request : HTTPRequest)
  /-- The transport raised `HTTPStreamOpenError`. -/
  | openError (statusCode : ℤ)
  | refresh

/-- What the parties of `_stream_chunks` do in one turn of its loop: the token they give, the chunks
of the stream, the exception it then raises, the refreshed token, and the time at which an error is
made. -/
structure StreamTurn where
  token : Except Exc PyStr
  chunks : List (List UInt8)
  failure : Option Exc
  refreshed : Except Exc PyStr
  now : Datetime

/-- What the parties of a connection do. -/
structure StreamWorld where
  turns : ℕ → StreamTurn
  sleep : Option Exc := none
  sleepAgain : Option Exc := none

namespace RestClient

variable (client : RestClient)

/-- The request of `_stream_chunks`. -/
def streamRequest (path accept token : PyStr) : HTTPRequest where
  method := str "GET"
  url := client.url path
  headers := [(str "Accept", accept), (str "Authorization", str "Bearer " ++ token)]

/-- `_stream_open_api_error`. -/
def streamOpenApiError (now : Datetime) (statusCode : ℤ) (headers : Headers) (body : List UInt8) :
    Except Exc Exc :=
  apiError (m := Id) client.lib now ⟨statusCode, headers, body⟩

/-- `raise _stream_open_api_error(exc)`: the error that it returns, or the one that it raises. -/
def raiseStreamOpenApiError (now : Datetime) (statusCode : ℤ) (headers : Headers)
    (body : List UInt8) : Exc :=
  match client.streamOpenApiError now statusCode headers body with
  | .ok error | .error error => error

/-- The loop of `_stream_chunks`, from a turn on: its steps, and what it raises. -/
def streamLoop (client : RestClient) (path accept : PyStr) (turns : ℕ → StreamTurn) (turn : ℕ)
    (refreshedAfter401 : Bool) : List (StreamEffect ⊕ Chunk) × Option Exc :=
  match (turns turn).token with
  | .error exc => ([.inl .getAccessToken], some exc)
  | .ok token =>
    let sent := .inl .getAccessToken :: .inl (.request (client.streamRequest path accept token)) ::
      (turns turn).chunks.map fun chunk => .inr (.bytes chunk)
    match (turns turn).failure with
    | some (.streamOpen statusCode headers body) =>
      if h401 : statusCode = 401 ∧ refreshedAfter401 = false then
        match (turns turn).refreshed with
        | .error exc => (sent ++ [.inl (.openError statusCode), .inl .refresh], some exc)
        | .ok _ =>
          let (steps, failure) := client.streamLoop path accept turns (turn + 1) true
          (sent ++ [.inl (.openError statusCode), .inl .refresh] ++ steps, failure)
      else
        (sent ++ [.inl (.openError statusCode)],
          some (client.raiseStreamOpenApiError (turns turn).now statusCode headers body))
    | failure => (sent, failure)
termination_by if refreshedAfter401 then 0 else 1
decreasing_by simp [h401.2]

/-- `_stream_chunks`. -/
def streamChunks (path accept : PyStr) (world : StreamWorld) : Connection StreamEffect where
  steps := (client.streamLoop path accept world.turns 0 false).1
  failure := (client.streamLoop path accept world.turns 0 false).2
  sleep := world.sleep
  sleepAgain := world.sleepAgain

/-- `_stream_reconnect_policy`. -/
def streamReconnectPolicy : StreamReconnectPolicy where
  maxReconnects := max 0 (client.retryPolicy.maxAttempts - 1)
  baseDelaySeconds := client.retryPolicy.baseDelaySeconds
  maxDelaySeconds := client.retryPolicy.maxDelaySeconds
  retryAfterCeilingSeconds := client.retryPolicy.retryAfterCeilingSeconds

/-- `stream_events`. -/
def streamEvents (path accept : PyStr) (raiseOnError : Bool) (worlds : List StreamWorld) :
    List (Action StreamEffect) × Outcome :=
  let stream : TradeStationStream := ⟨client.streamReconnectPolicy, raiseOnError⟩
  stream.events (worlds.map (client.streamChunks path accept))

end RestClient

/-- A 4xx other than 429 at an open is raised as an exception that is not retried. -/
theorem RestClient.raiseStreamOpenApiError_notRetried (client : RestClient) (now : Datetime)
    {statusCode : ℤ} (headers : Headers) (body : List UInt8)
    (h : 400 ≤ statusCode ∧ statusCode < 500 ∧ statusCode ≠ 429) :
    NotRetried (client.raiseStreamOpenApiError now statusCode headers body) := by
  unfold raiseStreamOpenApiError streamOpenApiError apiError
  by_cases h401 : statusCode = 401
  · rw [if_pos h401]
    trivial
  · rw [if_neg h401, if_neg h.2.2]
    exact h

/-! ## The abstract open -/

/-- How far the source of a connection is. -/
inductive Opening
  | fresh
  | sent
  | expired
  | refreshed
  | resent

/-- What an action does to the source of the connection that is open. -/
inductive Attempt : Opening → Action StreamEffect → Opening → Prop
  | opened (p : Opening) (r : ℕ) : Attempt p (.opened r) .fresh
  | token (p : Opening) : Attempt p (.source .getAccessToken) p
  | request (request : HTTPRequest) : Attempt .fresh (.source (.request request)) .sent
  | expired : Attempt .sent (.source (.openError 401)) .expired
  | refused (p : Opening) (statusCode : ℤ) : Attempt p (.source (.openError statusCode)) p
  | refresh : Attempt .expired (.source .refresh) .refreshed
  | again (request : HTTPRequest) : Attempt .refreshed (.source (.request request)) .resent
  | yielded (p : Opening) (event : StreamEvent) : Attempt p (.yielded event) p
  | behind (p : Opening) (action : Action StreamEffect) (h : action.isBehind) : Attempt p action p

namespace Opening

/-- How many requests the source may still send. -/
def requests : Opening → ℕ
  | .fresh => 2
  | .sent | .expired | .refreshed => 1
  | .resent => 0

/-- How many refreshes the source may still ask for. -/
def refreshes : Opening → ℕ
  | .fresh | .sent | .expired => 1
  | .refreshed | .resent => 0

/-- Whether the source has seen the 401. -/
def seen401 : Opening → ℕ
  | .fresh | .sent => 0
  | .expired | .refreshed | .resent => 1

end Opening

/-- A request of a source. -/
def isStreamRequest : Action StreamEffect → Bool
  | .source (.request _) => true
  | _ => false

/-- A refresh that a source asked for. -/
def isStreamRefresh : Action StreamEffect → Bool
  | .source .refresh => true
  | _ => false

/-- A 401 at an open. -/
def isOpen401 : Action StreamEffect → Bool
  | .source (.openError statusCode) => statusCode = 401
  | _ => false

section
variable {p p' : Opening} {action : Action StreamEffect} {log : List (Action StreamEffect)}

theorem not_request_of_isBehind (h : action.isBehind) :
    isStreamRequest action = false ∧ isStreamRefresh action = false := by
  cases action with
  | source => cases h
  | _ => exact ⟨rfl, rfl⟩

theorem Attempt.requests (h : Attempt p action p') (hopened : action.isOpened = false) :
    p'.requests + (if isStreamRequest action then 1 else 0) ≤ p.requests := by
  cases h with
  | opened => cases hopened
  | behind _ _ hbehind => simp [not_request_of_isBehind hbehind]
  | _ => simp [Opening.requests, isStreamRequest]

theorem Attempt.refreshes (h : Attempt p action p') (hopened : action.isOpened = false) :
    p'.refreshes + (if isStreamRefresh action then 1 else 0) = p.refreshes := by
  cases h with
  | opened => cases hopened
  | behind _ _ hbehind => simp [not_request_of_isBehind hbehind]
  | _ => simp [Opening.refreshes, isStreamRefresh]

theorem Attempt.request_inv {request : HTTPRequest}
    (h : Attempt p (.source (.request request)) p') :
    (p = .fresh ∧ p' = .sent) ∨ (p = .refreshed ∧ p' = .resent) := by
  cases h with
  | request => exact .inl ⟨rfl, rfl⟩
  | again => exact .inr ⟨rfl, rfl⟩
  | behind _ _ hbehind => cases hbehind

theorem Attempt.seen401 (h : Attempt p action p') (hopened : action.isOpened = false) :
    p'.seen401 ≤ p.seen401 + if isOpen401 action then 1 else 0 := by
  cases h with
  | opened => cases hopened
  | expired => simp [Opening.seen401, isOpen401]
  | _ => simp [Opening.seen401]

end

/-! ## The log of a session is a path -/

/-- The effects among the steps of a source. -/
def effects (steps : List (StreamEffect ⊕ Chunk)) : List (Action StreamEffect) :=
  steps.filterMap fun
    | .inl effect => some (.source effect)
    | .inr _ => none

theorem effects_append (steps steps' : List (StreamEffect ⊕ Chunk)) :
    effects (steps ++ steps') = effects steps ++ effects steps' := List.filterMap_append

/-- The effects of a turn whose token is there: it sends its request. -/
theorem sent_path (refreshedAfter401 : Bool) (request : HTTPRequest) (chunks : List (List UInt8)) :
    Path Attempt (if refreshedAfter401 then .refreshed else .fresh)
      (effects (.inl .getAccessToken :: .inl (.request request) ::
        chunks.map fun chunk => .inr (.bytes chunk)))
      (if refreshedAfter401 then .resent else .sent) := by
  have hchunks : effects (chunks.map fun chunk => .inr (.bytes chunk)) = [] := by
    rw [effects, List.filterMap_map]
    exact List.filterMap_eq_nil_iff.2 fun _ _ => rfl
  change Path Attempt _ (.source .getAccessToken :: .source (.request request) ::
    effects (chunks.map fun chunk => .inr (.bytes chunk))) _
  rw [hchunks]
  cases refreshedAfter401 with
  | false => exact .cons (.token _) (.single (.request request))
  | true => exact .cons (.token _) (.single (.again request))

/-- The effects of a source, from one turn on. -/
theorem RestClient.streamLoop_path (client : RestClient) (path accept : PyStr)
    (turns : ℕ → StreamTurn) (turn : ℕ) (refreshedAfter401 : Bool) :
    ∃ p, Path Attempt (if refreshedAfter401 then .refreshed else .fresh)
      (effects (client.streamLoop path accept turns turn refreshedAfter401).1) p := by
  fun_induction RestClient.streamLoop client path accept turns turn refreshedAfter401 with
  | case1 turn refreshedAfter401 => exact ⟨_, .single (.token _)⟩
  | case2 turn refreshedAfter401 token _ sent statusCode _ _ _ h401 =>
    obtain ⟨rfl, rfl⟩ := h401
    have hsent := sent_path false (client.streamRequest path accept token) (turns turn).chunks
    refine ⟨.refreshed, ?_⟩
    rw [effects_append]
    exact hsent.append (.cons .expired (.single .refresh))
  | case3 turn refreshedAfter401 token _ sent statusCode _ _ _ h401 _ _ steps failure hloop ih =>
    obtain ⟨rfl, rfl⟩ := h401
    have hsent := sent_path false (client.streamRequest path accept token) (turns turn).chunks
    obtain ⟨p, hsteps⟩ := ih
    refine ⟨p, ?_⟩
    rw [hloop] at hsteps
    rw [effects_append, effects_append]
    exact (hsent.append (.cons .expired (.single .refresh))).append hsteps
  | case4 turn refreshedAfter401 token _ sent statusCode =>
    have hsent := sent_path refreshedAfter401 (client.streamRequest path accept token)
      (turns turn).chunks
    refine ⟨if refreshedAfter401 then .resent else .sent, ?_⟩
    rw [effects_append]
    exact hsent.append (.single (.refused _ statusCode))
  | case5 turn refreshedAfter401 token =>
    exact ⟨_, sent_path refreshedAfter401 (client.streamRequest path accept token)
      (turns turn).chunks⟩

theorem emit_attempt (p : Opening) (raiseOnError : Bool) (reconnects : ℕ)
    (messages : List Json.Dict) : Path Attempt p (emit raiseOnError reconnects messages).1 p := by
  induction messages generalizing reconnects with
  | nil => exact .nil p
  | cons payload messages ih =>
    rw [emit]
    simp only
    split_ifs
    · exact .nil p
    · exact .single (.yielded p _)
    · exact .cons (.yielded p _) (ih 0)

/-- The loop over the steps of a source performs its effects, as far as it goes. -/
theorem consume_attempt (raiseOnError : Bool) (parser : JsonStreamParser) (reconnects : ℕ)
    (failure : Option Exc) {steps : List (StreamEffect ⊕ Chunk)} {p q : Opening}
    (h : Path Attempt p (effects steps) q) :
    ∃ p', Path Attempt p (consume raiseOnError parser reconnects failure steps).1 p' := by
  induction steps generalizing parser reconnects p with
  | nil => cases failure <;> exact ⟨p, .nil p⟩
  | cons step steps ih =>
    cases step with
    | inl effect =>
      obtain ⟨p₁, hhead, htail⟩ := path_cons.1 h
      obtain ⟨p', hrest⟩ := ih parser reconnects htail
      exact ⟨p', .cons hhead hrest⟩
    | inr chunk =>
      rw [consume]
      rcases parser.feed chunk with ⟨exc | messages, parser'⟩
      · exact ⟨p, .nil p⟩
      · have hemit := emit_attempt p raiseOnError reconnects messages
        rcases hmessages : emit (σ := StreamEffect) raiseOnError reconnects messages with
          ⟨actions, reconnects', _ | stop⟩ <;> rw [hmessages] at hemit
        · obtain ⟨p', hrest⟩ := ih parser' reconnects' h
          exact ⟨p', by simpa only [hmessages] using hemit.append hrest⟩
        · exact ⟨p, by simpa only [hmessages] using hemit⟩

theorem behind_attempt (p : Opening) {log : List (Action StreamEffect)}
    (h : ∀ action ∈ log, action.isBehind) : Path Attempt p log p := by
  induction log with
  | nil => exact .nil p
  | cons action log ih =>
    exact .cons (.behind p action (h action List.mem_cons_self))
      (ih fun action' haction => h action' (List.mem_cons_of_mem _ haction))

namespace RestClient

variable (client : RestClient)

theorem connect_attempt (stream : TradeStationStream) (p : Opening) (reconnects : ℕ)
    (path accept : PyStr) (world : StreamWorld) :
    ∃ p', Path Attempt p (stream.connect reconnects (client.streamChunks path accept world)).1
      p' := by
  obtain ⟨q, hsteps⟩ : ∃ q, Path Attempt .fresh
      (effects (client.streamChunks path accept world).steps) q :=
    client.streamLoop_path path accept world.turns 0 false
  rcases hconsume : consume stream.raiseOnError .init reconnects
      (client.streamChunks path accept world).failure (client.streamChunks path accept world).steps
    with ⟨actions, reconnects', stop⟩
  obtain ⟨p', hpath⟩ := consume_attempt stream.raiseOnError .init reconnects
    (client.streamChunks path accept world).failure hsteps
  rw [hconsume] at hpath
  rw [stream.connect_eq reconnects _ hconsume]
  exact ⟨p', .cons (.opened p reconnects) (hpath.append (behind_attempt p'
    (afterConnection_isBehind stream.reconnectPolicy _ reconnects' stop)))⟩

theorem run_attempts (stream : TradeStationStream) (p : Opening) (reconnects : ℕ)
    (path accept : PyStr) (worlds : List StreamWorld) :
    ∃ p', Path Attempt p
      (stream.run reconnects (worlds.map (client.streamChunks path accept))).1 p' := by
  induction worlds generalizing p reconnects with
  | nil => exact ⟨p, .nil p⟩
  | cons world worlds ih =>
    obtain ⟨p₁, hconnect⟩ := client.connect_attempt stream p reconnects path accept world
    rw [List.map_cons, TradeStationStream.run]
    rcases hc : stream.connect reconnects (client.streamChunks path accept world) with
      ⟨actions, outcome | reconnects'⟩ <;> rw [hc] at hconnect
    · exact ⟨p₁, hconnect⟩
    · obtain ⟨p', hrun⟩ := ih p₁ reconnects'
      exact ⟨p', hconnect.append hrun⟩

end RestClient

/-! ## What a session sends -/

theorem source_notMem_emit {σ : Type} (raiseOnError : Bool) (reconnects : ℕ)
    (messages : List Json.Dict) (effect : σ) :
    .source effect ∉ (emit (σ := σ) raiseOnError reconnects messages).1 := by
  induction messages generalizing reconnects with
  | nil => simp [emit]
  | cons payload messages ih =>
    rw [emit]
    simp only
    split_ifs
    · simp
    · simp
    · simpa using ih 0

/-- The effects in a log are those of the sources. -/
theorem source_mem_consume {σ : Type} (raiseOnError : Bool) (parser : JsonStreamParser)
    (reconnects : ℕ) (failure : Option Exc) (steps : List (σ ⊕ Chunk)) {effect : σ}
    (h : .source effect ∈ (consume raiseOnError parser reconnects failure steps).1) :
    .inl effect ∈ steps := by
  induction steps generalizing parser reconnects with
  | nil => cases failure <;> cases h
  | cons step steps ih =>
    cases step with
    | inl effect' =>
      rcases List.mem_cons.1 h with heffect | h
      · cases heffect
        exact List.mem_cons_self
      · exact List.mem_cons_of_mem _ (ih parser reconnects h)
    | inr chunk =>
      rw [consume] at h
      rcases hfeed : parser.feed chunk with ⟨exc | messages, parser'⟩ <;> rw [hfeed] at h
      · cases h
      · have hemit := source_notMem_emit raiseOnError reconnects messages effect
        rcases hmessages : emit (σ := σ) raiseOnError reconnects messages with
          ⟨actions, reconnects', _ | stop⟩ <;> rw [hmessages] at hemit <;>
          simp only [hmessages] at h
        · rcases List.mem_append.1 h with h | h
          · exact absurd h hemit
          · exact List.mem_cons_of_mem _ (ih parser' reconnects' h)
        · exact absurd h hemit

theorem source_mem_connect {σ : Type} (stream : TradeStationStream) (reconnects : ℕ)
    (connection : Connection σ) {effect : σ}
    (h : .source effect ∈ (stream.connect reconnects connection).1) :
    .inl effect ∈ connection.steps := by
  rcases hconsume : consume stream.raiseOnError .init reconnects connection.failure
      connection.steps with ⟨actions, reconnects', stop⟩
  rw [stream.connect_eq reconnects _ hconsume] at h
  rcases List.mem_cons.1 h with hopened | h
  · cases hopened
  rcases List.mem_append.1 h with h | h
  · have hactions : .source effect ∈ (consume stream.raiseOnError .init reconnects
        connection.failure connection.steps).1 := by
      rw [hconsume]
      exact h
    exact source_mem_consume _ _ _ _ _ hactions
  · have hbehind := afterConnection_isBehind stream.reconnectPolicy connection reconnects' stop _ h
    cases hbehind

theorem source_mem_run {σ : Type} (stream : TradeStationStream) (reconnects : ℕ)
    (connections : List (Connection σ)) {effect : σ}
    (h : .source effect ∈ (stream.run reconnects connections).1) :
    ∃ connection ∈ connections, .inl effect ∈ connection.steps := by
  induction connections generalizing reconnects with
  | nil => cases h
  | cons connection connections ih =>
    have hconnect : .source effect ∈ (stream.connect reconnects connection).1 →
        .inl effect ∈ connection.steps := source_mem_connect stream reconnects connection
    rw [TradeStationStream.run] at h
    rcases hc : stream.connect reconnects connection with ⟨actions, outcome | reconnects'⟩ <;>
      rw [hc] at hconnect <;> simp only [hc] at h
    · exact ⟨connection, List.mem_cons_self, hconnect h⟩
    · rcases List.mem_append.1 h with h | h
      · exact ⟨connection, List.mem_cons_self, hconnect h⟩
      · obtain ⟨other, hother, heffect⟩ := ih reconnects' h
        exact ⟨other, List.mem_cons_of_mem _ hother, heffect⟩

namespace RestClient

variable (client : RestClient)

/-- A source sends nothing but its request. -/
theorem streamLoop_request {path accept : PyStr} {turns : ℕ → StreamTurn} {turn : ℕ}
    {refreshedAfter401 : Bool} {request : HTTPRequest}
    (h : .inl (.request request) ∈ (client.streamLoop path accept turns turn refreshedAfter401).1) :
    ∃ token, request = client.streamRequest path accept token := by
  have hsent : ∀ (token : PyStr) (chunks : List (List UInt8)),
      Sum.inl (.request request) ∈ (.inl .getAccessToken ::
        .inl (.request (client.streamRequest path accept token)) ::
          chunks.map fun chunk => .inr (.bytes chunk) : List (StreamEffect ⊕ Chunk)) →
      ∃ token, request = client.streamRequest path accept token := by
    intro token chunks hmem
    exact ⟨token, by simpa using hmem⟩
  fun_induction RestClient.streamLoop client path accept turns turn refreshedAfter401 with
  | case1 => simp at h
  | case2 _ _ token =>
    rcases List.mem_append.1 h with h | h
    · exact hsent token _ h
    · simp at h
  | case3 _ _ token _ _ _ _ _ _ _ _ _ _ _ hloop ih =>
    rcases List.mem_append.1 h with h | h
    · rcases List.mem_append.1 h with h | h
      · exact hsent token _ h
      · simp at h
    · exact ih (by rwa [hloop])
  | case4 _ _ token =>
    rcases List.mem_append.1 h with h | h
    · exact hsent token _ h
    · simp at h
  | case5 _ _ token => exact hsent token _ h

/-- **A session sends nothing but the request of its stream.** -/
theorem streamEvents_request {path accept : PyStr} {raiseOnError : Bool}
    {worlds : List StreamWorld} {request : HTTPRequest}
    (h : .source (.request request) ∈ (client.streamEvents path accept raiseOnError worlds).1) :
    ∃ token, request = client.streamRequest path accept token := by
  obtain ⟨connection, hconnection, hsteps⟩ := source_mem_run _ _ _ h
  obtain ⟨world, -, rfl⟩ := List.mem_map.1 hconnection
  exact client.streamLoop_request hsteps

end RestClient

/-! ## How often a session sends -/

/-- Each connection of a log is opened with at most two requests, at most one refresh, and the
second request only behind a 401 and the refresh. -/
structure OpensBounded (log : List (Action StreamEffect)) : Prop where
  requests : ∀ segment, segment <:+: log → segment.countP Action.isOpened = 0 →
    segment.countP isStreamRequest ≤ 2
  refreshes : ∀ segment, segment <:+: log → segment.countP Action.isOpened = 0 →
    segment.countP isStreamRefresh ≤ 1
  second : ∀ before request between request' after,
    log = before ++ .source (.request request) ::
      (between ++ .source (.request request') :: after) →
    between.countP Action.isOpened = 0 →
    .source (.openError 401) ∈ between ∧ .source .refresh ∈ between

theorem requests_le {p p' : Opening} {log : List (Action StreamEffect)}
    (h : Path Attempt p log p') (hopened : log.countP Action.isOpened = 0) :
    p'.requests + log.countP isStreamRequest ≤ p.requests := by
  have haccount := h.account (fun action => action.isOpened = false) Opening.requests
    (fun _ => false) isStreamRequest (by simpa using hopened) fun hattempt haction => by
      simpa using hattempt.requests haction
  simpa using haccount

theorem refreshes_eq {p p' : Opening} {log : List (Action StreamEffect)}
    (h : Path Attempt p log p') (hopened : log.countP Action.isOpened = 0) :
    p'.refreshes + log.countP isStreamRefresh = p.refreshes := by
  have hbalance := h.balance (fun action => action.isOpened = false) Opening.refreshes
    (fun _ => false) isStreamRefresh (by simpa using hopened) fun hattempt haction => by
      simpa using hattempt.refreshes haction
  simpa using hbalance

theorem seen401_le {p p' : Opening} {log : List (Action StreamEffect)}
    (h : Path Attempt p log p') (hopened : log.countP Action.isOpened = 0) :
    p'.seen401 ≤ p.seen401 + log.countP isOpen401 := by
  have haccount := h.account (fun action => action.isOpened = false) Opening.seen401
    isOpen401 (fun _ => false) (by simpa using hopened) fun hattempt haction => by
      simpa using hattempt.seen401 haction
  simpa using haccount

/-! ## Every run -/

theorem mem_of_isOpen401 {log : List (Action StreamEffect)} (h : 0 < log.countP isOpen401) :
    .source (.openError 401) ∈ log := by
  obtain ⟨action, hmem, h401⟩ := List.countP_pos_iff.1 h
  unfold isOpen401 at h401
  split at h401
  · rwa [of_decide_eq_true h401] at hmem
  · cases h401

theorem mem_of_isStreamRefresh {log : List (Action StreamEffect)}
    (h : 0 < log.countP isStreamRefresh) : .source .refresh ∈ log := by
  obtain ⟨action, hmem, hrefresh⟩ := List.countP_pos_iff.1 h
  unfold isStreamRefresh at hrefresh
  split at hrefresh
  · exact hmem
  · cases hrefresh

theorem OpensBounded.of_path {p p' : Opening} {log : List (Action StreamEffect)}
    (h : Path Attempt p log p') : OpensBounded log := by
  have hsegment : ∀ segment, segment <:+: log → ∃ q q', Path Attempt q segment q' := by
    rintro segment ⟨before, after, rfl⟩
    rw [List.append_assoc] at h
    obtain ⟨q, -, h⟩ := path_append.1 h
    obtain ⟨q', h, -⟩ := path_append.1 h
    exact ⟨q, q', h⟩
  refine ⟨fun segment hinfix hopened => ?_, fun segment hinfix hopened => ?_, ?_⟩
  · obtain ⟨q, q', hpath⟩ := hsegment segment hinfix
    have hle := requests_le hpath hopened
    have hq : q.requests ≤ 2 := by cases q <;> simp [Opening.requests]
    omega
  · obtain ⟨q, q', hpath⟩ := hsegment segment hinfix
    have heq := refreshes_eq hpath hopened
    have hq : q.refreshes ≤ 1 := by cases q <;> simp [Opening.refreshes]
    omega
  · rintro before request between request' after rfl hopened
    obtain ⟨q, -, h⟩ := path_append.1 h
    obtain ⟨q₁, hfirst, h⟩ := path_cons.1 h
    obtain ⟨q₂, hbetween, h⟩ := path_append.1 h
    obtain ⟨q₃, hsecond, -⟩ := path_cons.1 h
    have hle := requests_le hbetween hopened
    have heq := refreshes_eq hbetween hopened
    have h401 := seen401_le hbetween hopened
    -- the first request was the first of its connection, and so the second is not
    rcases hfirst.request_inv with ⟨rfl, rfl⟩ | ⟨rfl, rfl⟩ <;>
      rcases hsecond.request_inv with ⟨rfl, rfl⟩ | ⟨rfl, rfl⟩ <;>
      simp only [Opening.requests, Opening.refreshes, Opening.seen401] at hle heq h401
    · omega
    · exact ⟨mem_of_isOpen401 (by omega), mem_of_isStreamRefresh (by omega)⟩
    · omega
    · omega

/-- **The reconnect budget is respected in every run**: of any session, and of one on the sources
of the REST client, whose connections are opened with two requests at most. -/
theorem reconnect_budget :
    (∀ (σ : Type) (stream : TradeStationStream) (connections : List (Connection σ)),
      BudgetRespected stream.reconnectPolicy.maxReconnects.toNat
        (stream.events connections).1) ∧
    ∀ (client : RestClient) (path accept : PyStr) (raiseOnError : Bool)
      (worlds : List StreamWorld),
      BudgetRespected (client.retryPolicy.maxAttempts - 1).toNat
          (client.streamEvents path accept raiseOnError worlds).1 ∧
        OpensBounded (client.streamEvents path accept raiseOnError worlds).1 := by
  have hbudget : ∀ (σ : Type) (stream : TradeStationStream) (connections : List (Connection σ)),
      BudgetRespected stream.reconnectPolicy.maxReconnects.toNat
        (stream.events connections).1 := by
    intro σ stream connections
    obtain ⟨p, hpath⟩ := stream.events_path connections
    exact .of_path (Nat.zero_le _) hpath
  refine ⟨hbudget, fun client path accept raiseOnError worlds => ?_⟩
  let stream : TradeStationStream := ⟨client.streamReconnectPolicy, raiseOnError⟩
  constructor
  · have h := hbudget StreamEffect stream (worlds.map (client.streamChunks path accept))
    have hm : stream.reconnectPolicy.maxReconnects.toNat =
        (client.retryPolicy.maxAttempts - 1).toNat := by
      change (max 0 (client.retryPolicy.maxAttempts - 1)).toNat = _
      omega
    rwa [hm] at h
  · obtain ⟨p, hpath⟩ := client.run_attempts stream .fresh 0 path accept worlds
    exact .of_path hpath

end TradeStation
