import TradeStation.Rest.Drops
import TradeStation.Rest.Feeds

/-!
# Over `httpx`

`HttpxAsyncTransport`, the transport that hands requests to a client of `httpx`. What that client does is a
parameter: it answers, or it raises, and what it raises is told apart by the two classes that the transport
asks for.

* `httpx_drop_handled_iff`: every `HTTPError` of a send is handled, and nothing else that is raised.
* `httpx_streamEvents_delivers`: a stream is exact here as well.
-/

namespace TradeStation

open Python Foundations TradeStation.Stream

/-! ## The transport -/

/-- What a client of `httpx` raises: a `TimeoutException`, another `HTTPError`, another `Exception` such as
`InvalidURL`, or no `Exception` at all. -/
inductive HttpxExc
  | timeout (text : PyStr)
  | httpError (text : PyStr)
  | other (text : PyStr)
  | base

/-- `isinstance(exc, HTTPError)`; `TimeoutException` is one. -/
def HttpxExc.isHTTPError : HttpxExc → Bool
  | .timeout _ | .httpError _ => true
  | .other _ | .base => false

/-- The handlers of `send` and of `stream`. -/
def HttpxExc.mapped : HttpxExc → Exc
  | .timeout text => .networkTimeout text
  | .httpError text => .transport text
  | .other text => .library (.other text)
  | .base => .base

theorem HttpxExc.isTransportError_mapped (e : HttpxExc) : e.mapped.isTransportError = e.isHTTPError := by
  cases e <;> rfl

/-- What `client.request` is called with. -/
structure HttpxRequest where
  method : PyStr
  url : PyStr
  headers : Headers
  json : Option Json.Dict
  data : Option (List (PyStr × PyStr))
  timeout : ℚ

/-- What `client.request` returns, as far as it is looked at. -/
structure HttpxResponse where
  statusCode : ℤ
  headers : Headers
  content : List UInt8

/-- `client.request`. -/
abbrev HttpxClient := HttpxRequest → Except HttpxExc HttpxResponse

/-- The request as `send` hands it on. -/
def httpxRequest (request : HTTPRequest) : HttpxRequest where
  method := upper request.method
  url := request.url
  headers := request.headers
  json := request.jsonBody
  data := request.formBody
  timeout := request.timeoutSeconds

/-- `HttpxAsyncTransport.send`. -/
def httpxSend (httpx : HttpxClient) (request : HTTPRequest) : Except Exc HTTPResponse :=
  match httpx (httpxRequest request) with
  | .ok response => .ok ⟨response.statusCode, response.headers, response.content⟩
  | .error e => .error e.mapped

/-- What a client does when it streams: it raises, or it has an answer, whose body is read as a whole or in
chunks. After the chunks it may raise. -/
inductive HttpxStream
  | raised (e : HttpxExc)
  | answered (statusCode : ℤ) (headers : Headers) (read : Except HttpxExc (List UInt8))
      (chunks : List (List UInt8)) (ended : Option HttpxExc)

/-- `HttpxAsyncTransport.stream`: the chunks it yields, and what it raises. -/
def httpxStream : HttpxStream → List (List UInt8) × Option Exc
  | .raised e => ([], some e.mapped)
  | .answered statusCode headers read chunks ended =>
    if 400 ≤ statusCode then
      match read with
      | .ok body => ([], some (.streamOpen statusCode headers body))
      | .error e => ([], some e.mapped)
    else (chunks, ended.map HttpxExc.mapped)

/-! ## Sending -/

/-- **Over `httpx` every `HTTPError` is handled, and nothing else**: whenever a client raises one in a call,
also in the body of an answer, a write ends in `AmbiguousOrderState`, and a read is retried or ends in
`RetryExhausted`, unless the delay of a next attempt is too large to compute; and whatever else it raises
the call raises. -/
theorem httpx_drop_handled_iff (client : RestClient) (call : Call) (httpx : HttpxClient)
    {before after : Trace Op Op.Answer} {request : HTTPRequest} {r : Except Exc Json.Dict}
    (hrun : Coro.Runs (client.requestJson call)
      (before ++ ⟨.send request, httpxSend httpx request⟩ :: after) r) {e : HttpxExc}
    (hraises : httpx (httpxRequest request) = .error e) :
    (DropHandled call after r ↔ e.isHTTPError = true ∧
      (call.retrySafe = true → client.retryPolicy.maxAttempts ≤ 1 + before.countP isSleep ∨
        1 + before.countP isSleep ≤ 1024)) ∧
      (e.isHTTPError = false → after = [] ∧ r = .error e.mapped) := by
  have hsend : httpxSend httpx request = .error e.mapped := by rw [httpxSend, hraises]
  have hplain : e.mapped.isAmbiguous = false ∧ e.mapped.isRetryExhausted = false := by
    cases e <;> exact ⟨rfl, rfl⟩
  rw [hsend] at hrun
  rw [failed_send_handled_iff hrun hplain.1 hplain.2, e.isTransportError_mapped]
  refine ⟨Iff.rfl, fun hother => failed_send_escapes hrun ?_⟩
  rw [e.isTransportError_mapped, hother]

/-- A connection that breaks before the headers of the answer. -/
def brokenHttpx : HttpxClient := fun _ => .error (.httpError (str "Server disconnected"))

/-- What a submission over such a connection ends with. -/
def brokenError : Exc := RestClient.ambiguous submitCall (.transport (str "Server disconnected"))

theorem runs_broken :
    Coro.Runs (simClient.requestJson submitCall)
      ([⟨.provider .getAccessToken, .ok (str "T")⟩] ++
        ⟨.send (simClient.request submitCall (str "T")),
          httpxSend brokenHttpx (simClient.request submitCall (str "T"))⟩ :: [])
      (.error brokenError) := by
  rw [RestClient.requestJson, RestClient.requestLoop, Program.getAccessToken, Program.runs_provider]
  refine .inr ⟨_, _, rfl, ?_⟩
  rw [Program.runs_send]
  refine ⟨_, _, rfl, ?_⟩
  exact ⟨rfl, rfl⟩

theorem httpx_drop_handled_iff_broken :
    (DropHandled submitCall [] (.error brokenError) ↔
      HttpxExc.isHTTPError (.httpError (str "Server disconnected")) = true ∧
      (submitCall.retrySafe = true → simClient.retryPolicy.maxAttempts ≤ 1 + (0 : ℕ) ∨ 1 + 0 ≤ 1024)) ∧
      (HttpxExc.isHTTPError (.httpError (str "Server disconnected")) = false → ([] : Trace Op Op.Answer) = [] ∧
        (.error brokenError : Except Exc Json.Dict) =
          .error (HttpxExc.mapped (.httpError (str "Server disconnected")))) :=
  httpx_drop_handled_iff simClient submitCall brokenHttpx runs_broken rfl

/-! ## Streaming -/

/-- One open over `httpx`, and the messages that the server sends, of which the bytes `missing` are not
yielded. -/
structure HttpxFeed where
  stream : HttpxStream
  messages : List Message
  missing : List UInt8
  sent : (httpxStream stream).1.flatten ++ missing = streamBytes messages

/-- An open that is refused yields nothing. -/
theorem httpxStream_refused {stream : HttpxStream} {statusCode : ℤ} {headers : Headers}
    {body : List UInt8} (h : (httpxStream stream).2 = some (.streamOpen statusCode headers body)) :
    (httpxStream stream).1 = [] := by
  have hmapped : ∀ e : HttpxExc, e.mapped ≠ .streamOpen statusCode headers body := by
    intro e
    cases e <;> simp [HttpxExc.mapped]
  cases stream with
  | raised e => exact absurd (Option.some.inj h) (hmapped e)
  | answered status headers' read chunks ended =>
    unfold httpxStream at h ⊢
    dsimp only at h ⊢
    split_ifs at h ⊢
    · cases read with
      | ok body' => rfl
      | error e => exact absurd (Option.some.inj h) (hmapped e)
    · obtain ⟨e, -, he⟩ := Option.map_eq_some_iff.1 h
      exact absurd he (hmapped e)

def HttpxFeed.toFeed (feed : HttpxFeed) : Feed where
  chunks := (httpxStream feed.stream).1
  failure := (httpxStream feed.stream).2
  messages := feed.messages
  missing := feed.missing
  refused _ _ _ h := httpxStream_refused h
  sent := feed.sent

/-- What the parties of `_stream_chunks` do in one turn of its loop. -/
structure HttpxTurn where
  token : Except Exc PyStr
  feed : HttpxFeed
  refreshed : Except Exc PyStr
  now : Datetime

/-- What the parties of a connection do. -/
structure HttpxWorld where
  turns : ℕ → HttpxTurn
  sleep : Option Exc := none
  sleepAgain : Option Exc := none

def HttpxTurn.fed (turn : HttpxTurn) : FeedTurn :=
  ⟨turn.token, turn.feed.toFeed, turn.refreshed, turn.now⟩

def HttpxWorld.fed (world : HttpxWorld) : FeedWorld :=
  ⟨fun n => (world.turns n).fed, world.sleep, world.sleepAgain⟩

/-- **Over `httpx` a stream is exact**: connection by connection the caller gets the events of the first
messages that the server sent on the open that was accepted, and of all if all was handed on. -/
theorem httpx_streamEvents_delivers (client : RestClient) (path accept : PyStr) (raiseOnError : Bool)
    (worlds : List HttpxWorld) :
    Delivers raiseOnError (worlds.map HttpxWorld.fed)
      (client.streamEvents path accept raiseOnError (worlds.map fun world => world.fed.world)).1
      (client.streamEvents path accept raiseOnError (worlds.map fun world => world.fed.world)).2 := by
  have hworlds : (worlds.map fun world => world.fed.world) =
      (worlds.map HttpxWorld.fed).map FeedWorld.world := by
    rw [List.map_map]
    rfl
  rw [hworlds]
  exact streamEvents_delivers client path accept raiseOnError _

/-- A connection over `httpx` whose opens, the first and the second, go so. -/
def httpxWorld (first second : HttpxFeed) : HttpxWorld :=
  ⟨fun n => ⟨.ok (str "T"), if n = 0 then first else second, .ok (str "T"), .utc 0⟩, none, none⟩

/-- An open that is refused. -/
def refusedFeed : HttpxFeed where
  stream := .answered 401 [] (.ok []) [] none
  messages := []
  missing := []
  sent := rfl

/-- Two messages, and a connection that breaks behind them. -/
def brokenFeed : HttpxFeed where
  stream := .answered 200 [] (.ok []) cutChunks (some (.httpError []))
  messages := [emptyMessage, emptyMessage]
  missing := []
  sent := rfl

/-- One message. -/
def wholeFeed : HttpxFeed where
  stream := .answered 200 [] (.ok []) [emptyMessage.bytes] none
  messages := [emptyMessage]
  missing := []
  sent := rfl

theorem httpx_reopened : [httpxWorld refusedFeed brokenFeed, httpxWorld wholeFeed wholeFeed].map
    (fun world => world.fed.world) = reopenedWorlds := by
  have hturn : ∀ first second : HttpxFeed, (httpxWorld first second).fed.world =
      ⟨fun n => if n = 0 then simTurn (httpxStream first.stream).1 (httpxStream first.stream).2
        else simTurn (httpxStream second.stream).1 (httpxStream second.stream).2, none, none⟩ := by
    intro first second
    simp only [HttpxWorld.fed, FeedWorld.world, httpxWorld, StreamWorld.mk.injEq, and_true]
    funext n
    by_cases hn : n = 0 <;> simp [hn, HttpxTurn.fed, FeedTurn.turn, HttpxFeed.toFeed, simTurn]
  simp only [List.map_cons, List.map_nil, hturn, ite_self]
  rfl

/-- Behind a 401 the stream is opened again, and behind a connection that breaks there is another: three
messages. -/
theorem httpx_streamEvents_delivers_reopened :
    Delivers true
        ([httpxWorld refusedFeed brokenFeed, httpxWorld wholeFeed wholeFeed].map HttpxWorld.fed)
        (simClient.streamEvents [] [] true reopenedWorlds).1
        (simClient.streamEvents [] [] true reopenedWorlds).2 ∧
      opens (simClient.streamEvents [] [] true reopenedWorlds).1 = 2 ∧
      (yields (simClient.streamEvents [] [] true reopenedWorlds).1).map StreamEvent.kind =
        [.data, .data, .data] := by
  have h := httpx_streamEvents_delivers simClient [] [] true
    [httpxWorld refusedFeed brokenFeed, httpxWorld wholeFeed wholeFeed]
  rw [httpx_reopened] at h
  exact ⟨h, reopened_log⟩

end TradeStation
