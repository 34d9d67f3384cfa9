import TradeStation.Rest.Feeds
import TradeStation.Stream.Lossless

/-!
# A stream, from the socket to the caller

`stream_events` over `UrllibAsyncTransport.stream`, with its reader thread, the event loop and its
coroutine.

* `unread_of_path`: an open that was refused has read nothing.
* `ThreadFeed`: one open, as the three parties get it done.
* `streamEvents_fedExactly`: the caller gets the messages that the server sent, on any interleaving and in
  any chunks.
-/

namespace TradeStation

open Python Foundations TradeStation.Stream

/-! ## Opens that were refused -/

namespace Streaming

variable {s s' : Streaming}

/-- What is read is read behind an open. -/
structure Unread (s : Streaming) : Prop where
  opening : s.reader = .opening → s.read = []
  refused : ∀ statusCode headers body,
    s.ending = some (.raised (.streamOpen statusCode headers body)) → s.read = []

theorem ReaderStep.unread {act : ReaderAct} (h : ReaderStep s act s') (hs : s.Inv) (hunread : s.Unread) :
    s'.Unread := by
  by_cases hover : s.reader.Over
  · obtain ⟨hending, hread, hover'⟩ := h.past hover
    constructor
    · intro hopening
      rw [hopening] at hover'
      exact hover'.elim
    · rw [hending, hread]
      exact hunread.refused
  · have hnone : s.ending = none := not_not.1 fun hne => hover (hs.past hne)
    have hgoing : ∀ {statusCode headers body},
        s.ending ≠ some (.raised (.streamOpen statusCode headers body)) := by simp [hnone]
    cases h with
    | «open» _ h => exact ⟨fun hopening => (by cases hopening), fun _ _ _ => hunread.refused _ _ _⟩
    | openRaises _ _ h =>
      exact ⟨fun hopening => (by cases hopening), fun _ _ _ _ => hunread.opening h⟩
    | test h =>
      refine ⟨fun hopening => ?_, hunread.refused⟩
      change (if s.stop = true then Reader.closing else .reading) = .opening at hopening
      split_ifs at hopening
    | readChunk => exact ⟨fun hopening => (by cases hopening), fun _ _ _ h => absurd h hgoing⟩
    | readEof => exact ⟨fun hopening => (by cases hopening), fun _ _ _ h => (by cases h)⟩
    | readRaises => exact ⟨fun hopening => (by cases hopening), fun _ _ _ h => (by cases h)⟩
    | submit item next h => exact ⟨fun hopening => (by cases hopening), hunread.refused⟩
    | submitClosed item next h =>
      refine ⟨fun hopening => ?_, hunread.refused⟩
      cases next <;> cases hopening
    | putDone next h =>
      refine ⟨fun hopening => ?_, hunread.refused⟩
      cases next <;> cases hopening
    | timeout next h => exact ⟨fun hopening => (by cases hopening), hunread.refused⟩
    | waitAgain next h => exact ⟨fun hopening => (by cases hopening), hunread.refused⟩
    | giveUp next h =>
      refine ⟨fun hopening => ?_, hunread.refused⟩
      cases next <;> cases hopening
    | close h => exact ⟨fun hopening => (by cases hopening), hunread.refused⟩
    | closeRaises h => exact ⟨fun hopening => (by cases hopening), hunread.refused⟩

theorem Unread.congr (hunread : s.Unread) (hreader : s'.reader = s.reader) (hread : s'.read = s.read)
    (hending : s'.ending = s.ending) : s'.Unread := by
  constructor
  · rw [hreader, hread]
    exact hunread.opening
  · rw [hending, hread]
    exact hunread.refused

theorem Step.unread {l : StreamLabel} (h : Step s l s') (hs : s.Inv) (hunread : s.Unread) :
    s'.Unread := by
  cases h with
  | reader h => exact h.unread hs hunread
  | loop h =>
    obtain ⟨hreader, -, -, hread, hending, -, -⟩ := h.frame
    exact hunread.congr hreader hread hending
  | consumer h =>
    obtain ⟨hreader, -, -, -, hread, hending, -⟩ := h.frame
    exact hunread.congr hreader hread hending

/-- **An open that was refused has read nothing**, on any run. -/
theorem unread_of_path {ls : List StreamLabel} (h : Path Step start ls s) : s.Unread := by
  have hboth : s.Inv ∧ s.Unread :=
    h.invariant (I := fun s => s.Inv ∧ s.Unread) (fun _ => True) (fun _ _ => trivial)
      (fun hstep _ hs => ⟨hstep.inv hs.1, hstep.unread hs.1 hs.2⟩)
      ⟨inv_start, fun _ => rfl, fun _ _ _ h => by cases h⟩
  exact hboth.2

/-- What the `async for` over `stream` meets when the coroutine has left its loop. -/
def Passes (s : Streaming) (failure : Option Exc) : Prop :=
  match s.consumer.outcome with
  | none => False
  | some .ended => failure = none
  | some (.raised e) => failure = some e
  | some .stopped => failure = some .base
  | some .closeRaised => ∃ e, failure = some (.library e)

/-- Where the `async for` meets the refusal of the open, it was given no chunk. -/
theorem Passes.refused {ls : List StreamLabel} (h : Path Step start ls s) {statusCode : ℤ}
    {headers : Headers} {body : List UInt8} (hpasses : s.Passes (some (.streamOpen statusCode headers body))) :
    s.yielded = [] := by
  have hinv := inv_of_path h
  rcases houtcome : s.consumer.outcome with _ | _ | e | _ | _ <;> rw [Passes, houtcome] at hpasses
  · exact hpasses.elim
  · cases hpasses
  · cases hpasses
    obtain ⟨cause, hending, hcause, hyielded⟩ := hinv.told _ houtcome
    -- the thread passes such an error on as it is, and has it from the open only
    obtain rfl : cause = .streamOpen statusCode headers body := by
      unfold readerError at hcause
      split at hcause <;> first | (cases hcause; rfl) | cases hcause
    rw [hyielded, (unread_of_path h).refused _ _ _ hending]
  · cases hpasses
  · obtain ⟨e, he⟩ := hpasses
    cases he

end Streaming

/-! ## Feeds of the threads -/

/-- One open of a stream: a run of the transport up to where its coroutine has left the loop, and the
messages that the server sends, of which the bytes `unread` are not read. -/
structure ThreadFeed where
  labels : List StreamLabel
  state : Streaming
  reached : Path Streaming.Step .start labels state
  failure : Option Exc
  passes : state.Passes failure
  messages : List Message
  unread : List UInt8
  sent : state.read.flatten ++ unread = streamBytes messages

namespace ThreadFeed

variable (feed : ThreadFeed)

/-- What is read and not handed on is missing, and what is not read. -/
def toFeed : Feed where
  chunks := feed.state.yielded
  failure := feed.failure
  messages := feed.messages
  missing := (feed.state.read.drop feed.state.yielded.length).flatten ++ feed.unread
  refused statusCode headers body h := by
    have hpasses := feed.passes
    rw [h] at hpasses
    exact hpasses.refused feed.reached
  sent := by
    have hyielded := List.prefix_iff_eq_append.1 (Streaming.inv_of_path feed.reached).yielded
    rw [← List.append_assoc, ← List.flatten_append, hyielded, feed.sent]

/-- The coroutine was let go on until it met the end of the stream, or what the thread has raised. -/
def Undisturbed : Prop :=
  feed.state.consumer.outcome = some .ended ∨ ∃ e, feed.state.consumer.outcome = some (.raised e)

variable {feed}

/-- **Undisturbed, a feed hands on all that was read.** -/
theorem Undisturbed.yielded (h : feed.Undisturbed) : feed.state.yielded = feed.state.read := by
  have hinv := Streaming.inv_of_path feed.reached
  rcases h with h | ⟨e, h⟩
  · exact (hinv.told _ h).2
  · obtain ⟨-, -, -, hyielded⟩ := hinv.told _ h
    exact hyielded

end ThreadFeed

/-- What the parties of `_stream_chunks` do in one turn of its loop. -/
structure ThreadTurn where
  token : Except Exc PyStr
  feed : ThreadFeed
  refreshed : Except Exc PyStr
  now : Datetime

/-- What the parties of a connection do. -/
structure ThreadWorld where
  turns : ℕ → ThreadTurn
  sleep : Option Exc := none
  sleepAgain : Option Exc := none

def ThreadTurn.fed (turn : ThreadTurn) : FeedTurn :=
  ⟨turn.token, turn.feed.toFeed, turn.refreshed, turn.now⟩

def ThreadWorld.fed (world : ThreadWorld) : FeedWorld :=
  ⟨fun n => (world.turns n).fed, world.sleep, world.sleepAgain⟩

/-- The turn whose stream the connection has. -/
def ThreadWorld.last (world : ThreadWorld) : ThreadTurn :=
  if (world.turns 0).fed.reopens then world.turns 1 else world.turns 0

theorem ThreadWorld.fed_last (world : ThreadWorld) : world.fed.last = world.last.fed := by
  unfold FeedWorld.last ThreadWorld.last
  split_ifs with h h' h' <;> first | rfl | exact absurd h h' | exact absurd h' h

/-! ## From the socket to the caller -/

/-- What a caller gets from the connections of a session: what arrives of what the server sends, and all
of which the last byte was read, if nobody disturbed the transport. -/
structure FedExactly (raiseOnError : Bool) (worlds : List ThreadWorld) (log : List (Action StreamEffect))
    (outcome : Outcome) : Prop extends
    Delivers raiseOnError (worlds.map ThreadWorld.fed) log outcome where
  read : ∀ world ∈ worlds, ∀ token, world.last.token = .ok token → world.last.feed.Undisturbed →
    world.fed.arrived = completed world.last.feed.messages world.last.feed.state.read.flatten.length
  read_all : ∀ world ∈ worlds, ∀ token, world.last.token = .ok token → world.last.feed.Undisturbed →
    world.last.feed.unread = [] → world.fed.arrived = world.last.feed.messages

/-- **From the socket to the caller, a stream is exact**: on any interleaving of the thread, the event
loop and the coroutine of each connection, and in any chunks. -/
theorem streamEvents_fedExactly (client : RestClient) (path accept : PyStr) (raiseOnError : Bool)
    (worlds : List ThreadWorld) :
    FedExactly raiseOnError worlds
      (client.streamEvents path accept raiseOnError (worlds.map fun world => world.fed.world)).1
      (client.streamEvents path accept raiseOnError (worlds.map fun world => world.fed.world)).2 := by
  have hworlds : (worlds.map fun world => world.fed.world) =
      (worlds.map ThreadWorld.fed).map FeedWorld.world := by
    rw [List.map_map]
    rfl
  have hread : ∀ world : ThreadWorld, ∀ token, world.last.token = .ok token →
      world.last.feed.Undisturbed → world.fed.arrived =
        completed world.last.feed.messages world.last.feed.state.read.flatten.length := by
    intro world token htoken hundisturbed
    have htoken' : world.last.fed.token = .ok token := htoken
    rw [FeedWorld.arrived, world.fed_last, FeedTurn.bytes, htoken', ← hundisturbed.yielded]
    rfl
  rw [hworlds]
  refine ⟨streamEvents_delivers client path accept raiseOnError _, fun world _ => hread world, ?_⟩
  intro world _ token htoken hundisturbed hunread
  have hall := world.last.feed.sent
  rw [hunread, List.append_nil] at hall
  rw [hread world token htoken hundisturbed, hall, completed_all]

/-! ## Feeds that there are -/

namespace Streaming

/-- Between two reads: whatever was read has been handed on. -/
structure Level (s : Streaming) : Prop where
  reader : s.reader = .testing
  pending : s.pending = none
  items : s.queue.items = []
  stop : s.stop = false
  loopOpen : s.loopOpen = true
  consumer : s.consumer = .getting
  yielded : s.yielded = s.read

theorem room : 0 < streamQueueMaxChunks := by decide

/-- A chunk can be read and handed on. -/
theorem Level.chunk {s : Streaming} (h : s.Level) {bytes : List UInt8} (hbytes : bytes ≠ []) :
    ∃ ls s', Path Step s ls s' ∧ s'.Level ∧ s'.read = s.read ++ [bytes] := by
  obtain ⟨reader, pending, abandoned, ⟨items, accepted, taken, hconserved, hbounded⟩, stop, opened,
    loopOpen, consumer, read, ending, yielded⟩ := s
  obtain ⟨hreader, hpending, hitems, hstop, hloop, hconsumer, hyielded⟩ := h
  dsimp only at hreader hpending hitems hstop hloop hconsumer hyielded
  subst hreader hpending hitems hstop hloop hconsumer hyielded
  refine ⟨_, _, .cons (.reader (.test _ rfl)) <|
    .cons (.reader (.readChunk _ bytes rfl hbytes)) <|
    .cons (.reader (.submit _ (.chunk bytes) .loop rfl rfl)) <|
    .cons (.loop (.put _ (.chunk bytes) rfl rfl (by exact room))) <|
    .cons (.reader (.putDone _ .loop rfl rfl)) <|
    .cons (.consumer (.getChunk _ bytes [] rfl rfl rfl)) <|
    .cons (.consumer (.resume _ rfl rfl)) <|
    .nil _, ⟨?_, ?_, ?_, ?_, ?_, ?_, ?_⟩, ?_⟩ <;> rfl

/-- And so can any number of them. -/
theorem Level.chunks {s : Streaming} (h : s.Level) {chunks : List (List UInt8)}
    (hchunks : ∀ bytes ∈ chunks, bytes ≠ []) :
    ∃ ls s', Path Step s ls s' ∧ s'.Level ∧ s'.read = s.read ++ chunks := by
  induction chunks generalizing s with
  | nil => exact ⟨[], s, .nil s, h, by simp⟩
  | cons bytes chunks ih =>
    obtain ⟨ls, s', hpath, hlevel, hread⟩ := h.chunk (hchunks bytes List.mem_cons_self)
    obtain ⟨ls', s'', hpath', hlevel', hread'⟩ :=
      ih hlevel fun bytes hmem => hchunks bytes (List.mem_cons_of_mem _ hmem)
    exact ⟨ls ++ ls', s'', hpath.append hpath', hlevel', by rw [hread', hread]; simp⟩

/-- How the coroutine leaves behind the end of what is read, or behind a broken connection. -/
def endOutcome : Option PyStr → StreamOutcome
  | none => .ended
  | some text => .raised (.transport text)

/-- The reading can end, or break off, and the coroutine is told so. -/
theorem Level.ends {s : Streaming} (h : s.Level) (broken : Option PyStr) :
    ∃ ls s', Path Step s ls s' ∧ s'.consumer = .gone (endOutcome broken) ∧ s'.read = s.read ∧
      s'.yielded = s.read := by
  obtain ⟨reader, pending, abandoned, ⟨items, accepted, taken, hconserved, hbounded⟩, stop, opened,
    loopOpen, consumer, read, ending, yielded⟩ := s
  obtain ⟨hreader, hpending, hitems, hstop, hloop, hconsumer, hyielded⟩ := h
  dsimp only at hreader hpending hitems hstop hloop hconsumer hyielded
  subst hreader hpending hitems hstop hloop hconsumer hyielded
  cases broken with
  | none =>
    refine ⟨_, _, .cons (.reader (.test _ rfl)) <|
      .cons (.reader (.readEof _ rfl)) <|
      .cons (.reader (.close _ rfl)) <|
      .cons (.reader (.submit _ .done .exit rfl rfl)) <|
      .cons (.loop (.put _ .done rfl rfl (by exact room))) <|
      .cons (.consumer (.getDone _ [] rfl rfl rfl)) <|
      .cons (.consumer (.setStop _ .ended rfl rfl)) <|
      .cons (.consumer (.close _ .ended rfl rfl)) <|
      .cons (.consumer (.join _ .ended rfl rfl)) <|
      .nil _, ?_, ?_, ?_⟩ <;> rfl
  | some text =>
    refine ⟨_, _, .cons (.reader (.test _ rfl)) <|
      .cons (.reader (.readRaises _ (.osError text) rfl)) <|
      .cons (.reader (.submit _ (.error (.transport text)) .leave rfl rfl)) <|
      .cons (.loop (.put _ (.error (.transport text)) rfl rfl (by exact room))) <|
      .cons (.consumer (.getError _ (.transport text) [] rfl rfl rfl)) <|
      .cons (.consumer (.setStop _ (.raised (.transport text)) rfl rfl)) <|
      .cons (.consumer (.close _ (.raised (.transport text)) rfl rfl)) <|
      .cons (.consumer (.join _ (.raised (.transport text)) rfl rfl)) <|
      .nil _, ?_, ?_, ?_⟩ <;> rfl

/-- An open can succeed. -/
theorem opens_level : ∃ ls s, Path Step .start ls s ∧ s.Level ∧ s.read = [] :=
  ⟨_, _, .single (.reader (.open _ .opened rfl rfl)), ⟨rfl, rfl, rfl, rfl, rfl, rfl, rfl⟩, rfl⟩

/-- An open can be refused, and the coroutine is told so. -/
theorem refused (statusCode : ℤ) (body : List UInt8) :
    ∃ ls s, Path Step .start ls s ∧ s.consumer = .gone (.raised (.streamOpen statusCode [] body)) ∧
      s.read = [] ∧ s.yielded = [] := by
  have run : Path Step .start _ _ :=
    .cons (.reader (.openRaises _ (.httpError statusCode none (.ok body)) (.streamOpen statusCode [] body)
      rfl rfl)) <|
    .cons (.reader (.submit _ (.error (.streamOpen statusCode [] body)) .leave rfl rfl)) <|
    .cons (.loop (.put _ (.error (.streamOpen statusCode [] body)) rfl rfl (by exact room))) <|
    .cons (.consumer (.getError _ (.streamOpen statusCode [] body) [] rfl rfl rfl)) <|
    .cons (.consumer (.setStop _ (.raised (.streamOpen statusCode [] body)) rfl rfl)) <|
    .cons (.consumer (.close _ (.raised (.streamOpen statusCode [] body)) rfl rfl)) <|
    .cons (.consumer (.join _ (.raised (.streamOpen statusCode [] body)) rfl rfl)) <|
    .nil _
  exact ⟨_, _, run, rfl, rfl, rfl⟩

end Streaming

/-- Whatever chunks a socket gives, and however it ends, the three parties can hand it all on. -/
theorem ThreadFeed.exists_whole (chunks : List (List UInt8)) (hchunks : ∀ bytes ∈ chunks, bytes ≠ [])
    (messages : List Message) (hsent : chunks.flatten = streamBytes messages) (broken : Option PyStr) :
    ∃ feed : ThreadFeed, feed.Undisturbed ∧ feed.toFeed.chunks = chunks ∧
      feed.toFeed.failure = broken.map .transport ∧ feed.messages = messages ∧ feed.unread = [] := by
  obtain ⟨ls, s, hpath, hlevel, hnone⟩ := Streaming.opens_level
  obtain ⟨ls', s', hpath', hlevel', hread⟩ := hlevel.chunks hchunks
  obtain ⟨ls'', s'', hpath'', hconsumer, hread', hyielded⟩ := hlevel'.ends broken
  rw [hnone, List.nil_append] at hread
  have houtcome : s''.consumer.outcome = some (Streaming.endOutcome broken) := by
    rw [hconsumer]
    rfl
  refine ⟨⟨ls ++ (ls' ++ ls''), s'', hpath.append (hpath'.append hpath''), broken.map .transport, ?_,
    messages, [], ?_⟩, ?_, ?_, rfl, rfl, rfl⟩
  · rw [Streaming.Passes, houtcome]
    cases broken <;> rfl
  · rw [hread', hread, hsent, List.append_nil]
  · cases broken with
    | none => exact .inl houtcome
    | some text => exact .inr ⟨_, houtcome⟩
  · exact hyielded.trans hread

/-- They can be refused. -/
theorem ThreadFeed.exists_refused (statusCode : ℤ) (body : List UInt8) :
    ∃ feed : ThreadFeed, feed.Undisturbed ∧ feed.toFeed.chunks = [] ∧
      feed.toFeed.failure = some (.streamOpen statusCode [] body) := by
  obtain ⟨ls, s, hpath, hconsumer, hread, hyielded⟩ := Streaming.refused statusCode body
  have houtcome : s.consumer.outcome = some (.raised (.streamOpen statusCode [] body)) := by
    rw [hconsumer]
    rfl
  refine ⟨⟨ls, s, hpath, some (.streamOpen statusCode [] body), ?_, [], [], ?_⟩, .inr ⟨_, houtcome⟩,
    hyielded, rfl⟩
  · rw [Streaming.Passes, houtcome]
  · rw [hread]
    rfl

/-- A connection whose opens, the first and the second, go so. -/
def threadWorld (first second : ThreadFeed) : ThreadWorld :=
  ⟨fun n => ⟨.ok (str "T"), if n = 0 then first else second, .ok (str "T"), .utc 0⟩, none, none⟩

theorem threadWorld_world (first second : ThreadFeed) : (threadWorld first second).fed.world =
    ⟨fun n => if n = 0 then simTurn first.toFeed.chunks first.toFeed.failure
      else simTurn second.toFeed.chunks second.toFeed.failure, none, none⟩ := by
  simp only [ThreadWorld.fed, FeedWorld.world, threadWorld, StreamWorld.mk.injEq, and_true]
  funext n
  by_cases hn : n = 0 <;> simp [hn, ThreadTurn.fed, FeedTurn.turn, simTurn]

/-- Behind a 401 the stream is opened again, and behind a connection that breaks there is another: three
messages. -/
theorem streamEvents_fedExactly_reopened : ∃ worlds : List ThreadWorld,
    (∀ world ∈ worlds, world.last.feed.Undisturbed) ∧
      FedExactly true worlds (simClient.streamEvents [] [] true reopenedWorlds).1
        (simClient.streamEvents [] [] true reopenedWorlds).2 ∧
      opens (simClient.streamEvents [] [] true reopenedWorlds).1 = 2 ∧
      (yields (simClient.streamEvents [] [] true reopenedWorlds).1).map StreamEvent.kind =
        [.data, .data, .data] := by
  obtain ⟨refused, hrefused, hnone, h401⟩ := ThreadFeed.exists_refused 401 []
  obtain ⟨broken, hbroken, hcut, htransport, -⟩ := ThreadFeed.exists_whole cutChunks (by decide)
    [emptyMessage, emptyMessage] rfl (some [])
  obtain ⟨whole, hwhole, hchunk, hended, -⟩ := ThreadFeed.exists_whole [emptyMessage.bytes]
    (by decide) [emptyMessage] rfl none
  have h := streamEvents_fedExactly simClient [] [] true
    [threadWorld refused broken, threadWorld whole whole]
  have hworlds : [threadWorld refused broken, threadWorld whole whole].map
      (fun world => world.fed.world) = reopenedWorlds := by
    simp only [List.map_cons, List.map_nil, threadWorld_world, hnone, h401, hcut, htransport, hchunk,
      hended, ite_self]
    rfl
  rw [hworlds] at h
  refine ⟨_, ?_, h, reopened_log⟩
  intro world hworld
  rcases List.mem_pair.1 hworld with rfl | rfl
  · unfold ThreadWorld.last
    split_ifs
    · exact hbroken
    · exact hrefused
  · unfold ThreadWorld.last
    split_ifs <;> exact hwhole

end TradeStation
