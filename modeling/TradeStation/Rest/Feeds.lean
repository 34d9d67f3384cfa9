import TradeStation.Rest.Streams
import TradeStation.Stream.Delivery

/-!
# Streams over a transport

`stream_events` over some transport: on each connection the transport hands on chunks of what the server
sends, the source opens again behind a 401, and the session parses the chunks and classifies the messages.

* `Feed`: what a transport hands on of one open. One that was refused hands on nothing.
* `received_streamLoop`: so what arrives on a connection comes from one open.
* `streamEvents_delivers`: the caller gets the messages that arrive, in whatever chunks.
-/

namespace TradeStation

open Python Foundations TradeStation.Stream

/-! ## Feeds -/

/-- One open of a stream: the chunks that the transport yields, what it raises at their end, and the
messages that the server sends, of which the bytes `missing` are not handed on. -/
structure Feed where
  chunks : List (List UInt8)
  failure : Option Exc
  messages : List Message
  missing : List UInt8
  /-- An open that is refused yields nothing. -/
  refused : ∀ statusCode headers body, failure = some (.streamOpen statusCode headers body) → chunks = []
  sent : chunks.flatten ++ missing = streamBytes messages

/-- What the parties of `_stream_chunks` do in one turn of its loop, over the transport. -/
structure FeedTurn where
  token : Except Exc PyStr
  feed : Feed
  refreshed : Except Exc PyStr
  now : Datetime

/-- What the parties of a connection do, over the transport. -/
structure FeedWorld where
  turns : ℕ → FeedTurn
  sleep : Option Exc := none
  sleepAgain : Option Exc := none

/-- The turn of the loop. -/
def FeedTurn.turn (turn : FeedTurn) : StreamTurn where
  token := turn.token
  chunks := turn.feed.chunks
  failure := turn.feed.failure
  refreshed := turn.refreshed
  now := turn.now

def FeedWorld.world (world : FeedWorld) : StreamWorld where
  turns n := (world.turns n).turn
  sleep := world.sleep
  sleepAgain := world.sleepAgain

/-- The source opens again behind this turn. -/
def FeedTurn.reopens (turn : FeedTurn) : Bool :=
  match turn.token, turn.feed.failure, turn.refreshed with
  | .ok _, some (.streamOpen statusCode _ _), .ok _ => statusCode = 401
  | _, _, _ => false

/-- The turn whose stream the connection has. -/
def FeedWorld.last (world : FeedWorld) : FeedTurn :=
  if (world.turns 0).reopens then world.turns 1 else world.turns 0

/-- The bytes that the transport hands on in a turn, if it is asked for any. -/
def FeedTurn.bytes (turn : FeedTurn) : List UInt8 :=
  match turn.token with
  | .error _ => []
  | .ok _ => turn.feed.chunks.flatten

/-- The messages that arrive on a connection: those whose last byte is handed on. -/
def FeedWorld.arrived (world : FeedWorld) : List Message :=
  completed world.last.feed.messages world.last.bytes.length

theorem received_append {σ : Type} (steps more : List (σ ⊕ Chunk)) :
    received (steps ++ more) = received steps ++ received more := by
  induction steps with
  | nil => rfl
  | cons step steps ih => cases step <;> simp [received, ih]

theorem received_chunks {σ : Type} (chunks : List (List UInt8)) :
    received (chunks.map fun chunk => (.inr (.bytes chunk) : σ ⊕ Chunk)) = chunks.flatten := by
  induction chunks with
  | nil => rfl
  | cons chunk chunks ih => simp [received, Chunk.encoded, ih]

section
variable (client : RestClient) (path accept : PyStr)

/-- The last turn of the loop. -/
theorem received_streamLoop_true (turns : ℕ → FeedTurn) (n : ℕ) :
    received (client.streamLoop path accept (fun n => (turns n).turn) n true).1 = (turns n).bytes := by
  rw [RestClient.streamLoop]
  cases htoken : (turns n).token with
  | error e => simp [FeedTurn.turn, FeedTurn.bytes, htoken, received]
  | ok token =>
    cases hfailure : (turns n).feed.failure with
    | none => simp [FeedTurn.turn, FeedTurn.bytes, htoken, hfailure, received, received_chunks]
    | some e =>
      cases e <;>
        simp [FeedTurn.turn, FeedTurn.bytes, htoken, hfailure, received, received_append, received_chunks]

/-- **What arrives on a connection comes from one open.** -/
theorem received_streamLoop (world : FeedWorld) :
    received (client.streamChunks path accept world.world).steps = world.last.bytes := by
  change received (client.streamLoop path accept (fun n => (world.turns n).turn) 0 false).1 = _
  rw [RestClient.streamLoop, FeedWorld.last, FeedTurn.reopens]
  cases htoken : (world.turns 0).token with
  | error e => simp [FeedTurn.turn, FeedTurn.bytes, htoken, received]
  | ok token =>
    cases hfailure : (world.turns 0).feed.failure with
    | none =>
      simp [FeedTurn.turn, FeedTurn.bytes, htoken, hfailure, received, received_chunks]
    | some e =>
      cases e with
      | streamOpen statusCode headers body =>
        have hnone := (world.turns 0).feed.refused _ _ _ hfailure
        by_cases h401 : statusCode = 401
        · cases hrefreshed : (world.turns 0).refreshed with
          | error e =>
            simp [FeedTurn.turn, FeedTurn.bytes, htoken, hfailure, hrefreshed, h401, hnone, received]
          | ok token' =>
            have hrest := received_streamLoop_true client path accept world.turns 1
            simp only [FeedTurn.turn] at hrest
            simp [FeedTurn.turn, htoken, hfailure, hrefreshed, h401, hnone, received, hrest]
        · cases hrefreshed : (world.turns 0).refreshed <;>
            simp [FeedTurn.turn, FeedTurn.bytes, htoken, hfailure, h401, hnone, received]
      | _ => simp [FeedTurn.turn, FeedTurn.bytes, htoken, hfailure, received, received_chunks]

end

/-! ## What the caller gets -/

theorem completed_prefix (messages : List Message) (n : ℕ) : completed messages n <+: messages := by
  induction messages generalizing n with
  | nil => exact List.prefix_rfl
  | cons message messages ih =>
    rw [completed]
    split_ifs
    · exact (List.prefix_cons_inj message).2 (ih _)
    · exact List.nil_prefix

/-- What a turn hands on is the beginning of what the server sends. -/
theorem FeedTurn.bytes_prefix (turn : FeedTurn) : turn.bytes <+: streamBytes turn.feed.messages := by
  unfold FeedTurn.bytes
  cases turn.token with
  | error e => exact List.nil_prefix
  | ok token => exact ⟨turn.feed.missing, turn.feed.sent⟩

/-- The connection, as a delivery of what the server sends. -/
def FeedWorld.delivery (world : FeedWorld) (client : RestClient) (path accept : PyStr) :
    Delivery StreamEffect where
  toConnection := client.streamChunks path accept world.world
  messages := world.last.feed.messages
  missing := (streamBytes world.last.feed.messages).drop world.last.bytes.length
  wellFormed := by
    rw [received_streamLoop]
    exact List.prefix_iff_eq_append.1 world.last.bytes_prefix

theorem FeedWorld.arrived_delivery (world : FeedWorld) (client : RestClient) (path accept : PyStr) :
    (world.delivery client path accept).arrived = world.arrived := by
  rw [Delivery.arrived, FeedWorld.arrived]
  change completed world.last.feed.messages
    (received (client.streamChunks path accept world.world).steps).length = _
  rw [received_streamLoop]

/-- The events of the messages that arrive. -/
def FeedWorld.events (world : FeedWorld) : List StreamEvent :=
  world.arrived.map fun message => classifyStreamMessage message.value

/-- What a caller of `stream_events` gets from the connections of a session. -/
structure Delivers (raiseOnError : Bool) (worlds : List FeedWorld) (log : List (Action StreamEffect))
    (outcome : Outcome) : Prop where
  opened : opens log ≤ worlds.length
  /-- The events of each connection in order, through its first GoAway and before an error that is
  raised. -/
  events : yields log = (worlds.take (opens log)).flatMap fun world => shown raiseOnError world.events
  /-- An error that is raised ends the session. -/
  error : ∀ (i : ℕ) (world : FeedWorld) (error : StreamEvent), i < opens log → worlds[i]? = some world →
    raisedError raiseOnError world.events = some error →
    opens log = i + 1 ∧ outcome = .raised (streamError error)
  /-- They are of the first messages that the server sent. -/
  sent : ∀ world ∈ worlds, world.arrived <+: world.last.feed.messages
  /-- And of all, if all was handed on. -/
  all : ∀ world ∈ worlds, ∀ token, world.last.token = .ok token → world.last.feed.missing = [] →
    world.arrived = world.last.feed.messages

/-- **What arrives is delivered**, in whatever chunks it does. -/
theorem streamEvents_delivers (client : RestClient) (path accept : PyStr) (raiseOnError : Bool)
    (worlds : List FeedWorld) :
    Delivers raiseOnError worlds
      (client.streamEvents path accept raiseOnError (worlds.map FeedWorld.world)).1
      (client.streamEvents path accept raiseOnError (worlds.map FeedWorld.world)).2 := by
  have hconnections : (worlds.map FeedWorld.world).map (client.streamChunks path accept) =
      (worlds.map fun world => world.delivery client path accept).map Delivery.toConnection := by
    simp [FeedWorld.delivery]
  have hevents : ∀ world : FeedWorld, (world.delivery client path accept).events = world.events := by
    intro world
    rw [Delivery.events, world.arrived_delivery, FeedWorld.events]
  unfold RestClient.streamEvents TradeStationStream.events
  obtain ⟨hopened, hyields, herror⟩ := TradeStationStream.run_delivers
    ⟨client.streamReconnectPolicy, raiseOnError⟩ 0
    (worlds.map fun world => world.delivery client path accept)
  rw [← hconnections] at hopened hyields herror
  constructor
  · simpa using hopened
  · rw [← List.map_take, List.flatMap_map] at hyields
    simpa only [hevents] using hyields
  · intro i world error hi hworld hraised
    refine herror i (world.delivery client path accept) error hi ?_ ?_
    · rw [List.getElem?_map, hworld]
      rfl
    · rw [hevents]
      exact hraised
  · exact fun world _ => completed_prefix _ _
  · intro world _ token htoken hmissing
    have hall := world.last.feed.sent
    rw [hmissing, List.append_nil] at hall
    rw [FeedWorld.arrived, FeedTurn.bytes, htoken, hall, completed_all]

/-! ## A session with a reopen and a reconnect -/

/-- A turn in which an open with a token goes so. -/
def simTurn (chunks : List (List UInt8)) (failure : Option Exc) : StreamTurn where
  token := .ok (str "T")
  chunks := chunks
  failure := failure
  refreshed := .ok (str "T")
  now := .utc 0

/-- Two messages, of which the second is cut. -/
def cutChunks : List (List UInt8) := [[0x7b, 0x7d, 0x0a, 0x7b], [0x7d, 0x0a]]

/-- A connection that is opened again behind a 401 and breaks behind two messages, and one that ends
behind a third. -/
def reopenedWorlds : List StreamWorld :=
  [⟨fun n => if n = 0 then simTurn [] (some (.streamOpen 401 [] []))
      else simTurn cutChunks (some (.transport [])), none, none⟩,
    ⟨fun _ => simTurn [emptyMessage.bytes] none, none, none⟩]

theorem reopened_log : opens (simClient.streamEvents [] [] true reopenedWorlds).1 = 2 ∧
    (yields (simClient.streamEvents [] [] true reopenedWorlds).1).map StreamEvent.kind =
      [.data, .data, .data] := by
  decide +kernel

end TradeStation
