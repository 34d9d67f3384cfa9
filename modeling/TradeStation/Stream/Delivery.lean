import TradeStation.Stream.Chunking
import TradeStation.Stream.Session

/-!
# What a session yields

A delivery is a connection on which a well-formed stream arrives, in any chunks, up to any point,
and which then closes or fails. What a session yields from deliveries is a function of the messages
that arrived on each.

* `Chunk.feed_encoded`: a text chunk is fed as its bytes are.
* `consume_delivery`: the loop over the chunks of a delivery emits what one loop over the messages
  that arrived would.
* `run_delivers`: so a run yields, delivery by delivery, the events of these messages up to the
  first GoAway, and up to the error it raises.
* `run_congr`: and two runs on deliveries that differ in the chunks only are the same.
-/

namespace TradeStation.Stream

open Python Python.Json

/-! ## Chunks of text -/

/-- The bytes of a chunk. -/
def Chunk.encoded : Chunk → List UInt8
  | .bytes bs => bs
  | .text cs => utf8Encode cs

/-- A chunk of text that does not come inside a character is fed as its bytes are. -/
theorem Chunk.feed_encoded {chunk : Chunk} {parser : JsonStreamParser}
    (h : utf8Decode parser.pending chunk.encoded ≠ none) :
    parser.feed chunk = parser.feed (.bytes chunk.encoded) := by
  cases chunk with
  | bytes bs => rfl
  | text cs =>
    rw [encoded] at h
    by_cases hcs : cs = []
    · subst hcs
      simp [JsonStreamParser.feed, encoded, utf8Decode]
    · have hpending : parser.pending = [] := by
        by_contra hpending
        exact h (utf8Decode_encode_pending hpending hcs)
      simp [JsonStreamParser.feed, encoded, hpending, utf8Decode_encode]

/-- One feed of any chunk, at a cut of a well-formed stream. -/
theorem Fed.feed_chunk {messages : List Message} {fed future : List UInt8}
    {returned : List Dict} {parser : JsonStreamParser} (hfed : Fed fed returned parser)
    (chunk : Chunk) (h : fed ++ chunk.encoded ++ future = streamBytes messages) :
    ∃ more parser', parser.feed chunk = (.ok more, parser') ∧
      Fed (fed ++ chunk.encoded) (returned ++ more) parser' := by
  obtain ⟨more, parser', hfeed, hfed'⟩ := hfed.feed h
  refine ⟨more, parser', ?_, hfed'⟩
  rw [Chunk.feed_encoded, hfeed]
  intro hnone
  simp [JsonStreamParser.feed, hnone] at hfeed

/-- What a parser has returned by a cut of a well-formed stream. -/
theorem Fed.returned_eq {messages : List Message} {fed future : List UInt8}
    {returned : List Dict} {parser : JsonStreamParser} (hfed : Fed fed returned parser)
    (h : fed ++ future = streamBytes messages) :
    returned = (completed messages fed.length).map Message.value := by
  obtain ⟨cs, hdecode, hdrain⟩ := hfed
  obtain ⟨cs', pending, left, hdecode', hdrain', -⟩ := drain_prefix messages h
  obtain ⟨rfl, -⟩ : cs = cs' ∧ parser.pending = pending := by simpa [hdecode] using hdecode'
  rw [hdrain, Prod.mk.injEq, Except.ok.injEq] at hdrain'
  exact hdrain'.1

section
variable {σ : Type}

/-! ## Deliveries -/

/-- The bytes that arrive in some steps of a source. -/
def received : List (σ ⊕ Chunk) → List UInt8
  | [] => []
  | .inl _ :: steps => received steps
  | .inr chunk :: steps => chunk.encoded ++ received steps

/-- A connection on which a well-formed stream arrives, all but the bytes `missing` at its end. -/
structure Delivery (σ : Type) extends Connection σ where
  messages : List Message
  missing : List UInt8
  wellFormed : received steps ++ missing = streamBytes messages

namespace Delivery

/-- The messages whose last byte arrived. -/
def arrived (delivery : Delivery σ) : List Message :=
  completed delivery.messages (received delivery.steps).length

/-- The classifications of the messages that arrived. -/
def events (delivery : Delivery σ) : List StreamEvent :=
  delivery.arrived.map fun message => classifyStreamMessage message.value

/-- Two deliveries that differ in nothing but the chunks, and the effects of the source. -/
structure SameButChunks (d d' : Delivery σ) : Prop where
  messages : d.messages = d'.messages
  received : received d.steps = received d'.steps
  failure : d.failure = d'.failure
  sleep : d.sleep = d'.sleep
  sleepAgain : d.sleepAgain = d'.sleepAgain

end Delivery

/-! ## What a log shows -/

/-- The events that a session yielded. -/
def yields (log : List (Action σ)) : List StreamEvent :=
  log.filterMap fun
    | .yielded event => some event
    | _ => none

/-- The number of connections that a session opened. -/
def opens (log : List (Action σ)) : ℕ :=
  log.countP fun
    | .opened _ => true
    | _ => false

/-- A log less the effects of the sources. -/
def withoutSource (log : List (Action σ)) : List (Action σ) :=
  log.filter fun
    | .source _ => false
    | _ => true

@[simp] theorem yields_append (log log' : List (Action σ)) :
    yields (log ++ log') = yields log ++ yields log' := List.filterMap_append

@[simp] theorem opens_append (log log' : List (Action σ)) :
    opens (log ++ log') = opens log + opens log' := List.countP_append

@[simp] theorem withoutSource_append (log log' : List (Action σ)) :
    withoutSource (log ++ log') = withoutSource log ++ withoutSource log' := List.filter_append ..

@[simp] theorem yields_opened (reconnects : ℕ) (log : List (Action σ)) :
    yields (.opened reconnects :: log) = yields log := rfl

@[simp] theorem opens_opened (reconnects : ℕ) (log : List (Action σ)) :
    opens (.opened reconnects :: log) = opens log + 1 := by simp [opens]

@[simp] theorem withoutSource_opened (reconnects : ℕ) (log : List (Action σ)) :
    withoutSource (.opened reconnects :: log) = .opened reconnects :: withoutSource log := rfl

theorem yields_withoutSource (log : List (Action σ)) : yields (withoutSource log) = yields log := by
  induction log with
  | nil => rfl
  | cons action log ih => cases action <;> simpa [yields, withoutSource] using ih

theorem opens_withoutSource (log : List (Action σ)) : opens (withoutSource log) = opens log := by
  induction log with
  | nil => rfl
  | cons action log ih => cases action <;> simpa [opens, withoutSource] using ih

/-! ## One connection -/

/-- The events up to the first GoAway, and with it. -/
def throughGoAway (events : List StreamEvent) : List StreamEvent :=
  events.takeWhile (·.kind ≠ .goAway) ++ (events.find? (·.kind = .goAway)).toList

/-- The events of a connection that a session shows: through the first GoAway, and if errors are
raised before the first error. -/
def shown (raiseOnError : Bool) (events : List StreamEvent) : List StreamEvent :=
  (throughGoAway events).takeWhile fun event => ¬(raiseOnError ∧ event.kind = .error)

/-- The error of a connection that a session raises. -/
def raisedError (raiseOnError : Bool) (events : List StreamEvent) : Option StreamEvent :=
  (throughGoAway events).find? fun event => raiseOnError ∧ event.kind = .error

/-- The exception that an error of the stream is raised as. -/
def streamError (event : StreamEvent) : Exc :=
  .stream (str "TradeStation stream returned an error") (some event.payload)

/-- The loop over the messages of a connection that then ends, as if they came in one chunk. -/
def deliver (raiseOnError : Bool) (reconnects : ℕ) (failure : Option Exc) :
    List Dict → List (Action σ) × ℕ × Stop
  | [] =>
    match failure with
    | none => ([], reconnects, .closed)
    | some exc => ([], reconnects, .failed exc)
  | payload :: messages =>
    let event := classifyStreamMessage payload
    if raiseOnError ∧ event.kind = .error then ([], reconnects, .failed (streamError event))
    else if event.kind = .goAway then ([.yielded event], reconnects, .goAway)
    else
      let (actions, rest) := deliver raiseOnError 0 failure messages
      (.yielded event :: actions, rest)

theorem classifyStreamMessage_payload (payload : Dict) :
    (classifyStreamMessage payload).payload = payload := by
  unfold classifyStreamMessage
  split_ifs <;> rfl

/-- The messages of a chunk, and those that come behind it. -/
theorem deliver_append (raiseOnError : Bool) (reconnects : ℕ) (failure : Option Exc)
    (messages more : List Dict) :
    deliver (σ := σ) raiseOnError reconnects failure (messages ++ more) =
      match emit raiseOnError reconnects messages with
      | (actions, reconnects, some stop) => (actions, reconnects, stop)
      | (actions, reconnects, none) =>
        let (actions', rest) := deliver raiseOnError reconnects failure more
        (actions ++ actions', rest) := by
  induction messages generalizing reconnects with
  | nil => rfl
  | cons payload messages ih =>
    rw [List.cons_append, deliver, emit]
    simp only [streamError, classifyStreamMessage_payload]
    split_ifs
    · rfl
    · rfl
    · rw [ih]
      rcases emit (σ := σ) raiseOnError 0 messages with ⟨actions, reconnects', _ | stop⟩ <;> rfl

theorem withoutSource_emit (raiseOnError : Bool) (reconnects : ℕ) (messages : List Dict) :
    withoutSource (emit (σ := σ) raiseOnError reconnects messages).1 =
      (emit raiseOnError reconnects messages).1 := by
  induction messages generalizing reconnects with
  | nil => rfl
  | cons payload messages ih =>
    rw [emit]
    simp only
    split_ifs
    · rfl
    · rfl
    · simpa [withoutSource] using ih 0

/-- **The loop over the steps of a connection**, at a cut of a well-formed stream: all the messages
that the rest of the steps complete are delivered at once. -/
theorem consume_fed (raiseOnError : Bool) (failure : Option Exc) {messages : List Message}
    {steps : List (σ ⊕ Chunk)} {fed missing : List UInt8} {returned : List Dict}
    {parser : JsonStreamParser} (hfed : Fed fed returned parser) (reconnects : ℕ)
    (h : fed ++ received steps ++ missing = streamBytes messages) :
    ∃ more parser', Fed (fed ++ received steps) (returned ++ more) parser' ∧
      withoutSource (consume raiseOnError parser reconnects failure steps).1 =
        (deliver raiseOnError reconnects failure more).1 ∧
      (consume raiseOnError parser reconnects failure steps).2 =
        (deliver (σ := σ) raiseOnError reconnects failure more).2 := by
  induction steps generalizing fed returned parser reconnects with
  | nil =>
    refine ⟨[], parser, by simpa [received] using hfed, ?_⟩
    cases failure <;> exact ⟨rfl, rfl⟩
  | cons step steps ih =>
    cases step with
    | inl effect =>
      obtain ⟨more, parser', hfed', hlog, hrest⟩ := ih hfed reconnects h
      refine ⟨more, parser', hfed', ?_, hrest⟩
      rw [← hlog]
      rfl
    | inr chunk =>
      have hcut : fed ++ chunk.encoded ++ (received steps ++ missing) = streamBytes messages := by
        simpa [received] using h
      obtain ⟨more₁, parser₁, hfeed, hfed₁⟩ := hfed.feed_chunk chunk hcut
      have hih := ih hfed₁ (emit (σ := σ) raiseOnError reconnects more₁).2.1
        (by rw [← hcut, List.append_assoc])
      obtain ⟨more₂, parser₂, hfed₂, hlog, hrest⟩ := hih
      refine ⟨more₁ ++ more₂, parser₂, by simpa [received] using hfed₂, ?_⟩
      have hsource := withoutSource_emit (σ := σ) raiseOnError reconnects more₁
      rw [deliver_append, consume, hfeed]
      simp only
      rcases hemit : emit (σ := σ) raiseOnError reconnects more₁ with ⟨actions, reconnects', _ | stop⟩
      · simp only [hemit] at hsource hlog hrest ⊢
        exact ⟨by rw [withoutSource_append, hsource, hlog], hrest⟩
      · simp only [hemit] at hsource ⊢
        exact ⟨hsource, trivial⟩

/-- **A delivery is consumed** as its messages are delivered, all at once. -/
theorem consume_delivery (raiseOnError : Bool) (reconnects : ℕ) (delivery : Delivery σ) :
    let messages := delivery.arrived.map Message.value
    withoutSource (consume raiseOnError .init reconnects delivery.failure delivery.steps).1 =
        (deliver raiseOnError reconnects delivery.failure messages).1 ∧
      (consume raiseOnError .init reconnects delivery.failure delivery.steps).2 =
        (deliver (σ := σ) raiseOnError reconnects delivery.failure messages).2 := by
  obtain ⟨more, parser, hfed, hconsume⟩ :=
    consume_fed raiseOnError delivery.failure fed_init reconnects delivery.wellFormed
  have hmore := hfed.returned_eq delivery.wellFormed
  rw [List.nil_append, List.nil_append] at hmore
  rwa [Delivery.arrived, ← hmore]

/-! ## What a connection shows -/

theorem throughGoAway_cons_goAway {event : StreamEvent} (h : event.kind = .goAway)
    (events : List StreamEvent) : throughGoAway (event :: events) = [event] := by
  simp [throughGoAway, h]

theorem throughGoAway_cons {event : StreamEvent} (h : event.kind ≠ .goAway)
    (events : List StreamEvent) :
    throughGoAway (event :: events) = event :: throughGoAway events := by
  simp [throughGoAway, h]

theorem yields_deliver (raiseOnError : Bool) (reconnects : ℕ) (failure : Option Exc)
    (messages : List Dict) :
    yields (deliver (σ := σ) raiseOnError reconnects failure messages).1 =
      shown raiseOnError (messages.map classifyStreamMessage) := by
  induction messages generalizing reconnects with
  | nil => cases failure <;> rfl
  | cons payload messages ih =>
    rw [deliver, List.map_cons, shown]
    simp only
    split_ifs with herror hgo
    · have hgo : (classifyStreamMessage payload).kind ≠ .goAway := by simp [herror.2]
      simp [throughGoAway_cons hgo, herror, yields]
    · simp [throughGoAway_cons_goAway hgo, hgo, yields]
    · rw [throughGoAway_cons hgo, List.takeWhile_cons_of_pos (by simpa only [decide_eq_true_eq])]
      exact congrArg (classifyStreamMessage payload :: ·) (ih 0)

theorem opens_deliver (raiseOnError : Bool) (reconnects : ℕ) (failure : Option Exc)
    (messages : List Dict) :
    opens (deliver (σ := σ) raiseOnError reconnects failure messages).1 = 0 := by
  induction messages generalizing reconnects with
  | nil => cases failure <;> rfl
  | cons payload messages ih =>
    rw [deliver]
    simp only
    split_ifs
    · rfl
    · rfl
    · exact ih 0

/-- An error that is raised ends the loop over the messages. -/
theorem deliver_raisedError {raiseOnError : Bool} (reconnects : ℕ) (failure : Option Exc)
    {messages : List Dict} {error : StreamEvent}
    (h : raisedError raiseOnError (messages.map classifyStreamMessage) = some error) :
    (deliver (σ := σ) raiseOnError reconnects failure messages).2.2 =
      .failed (streamError error) := by
  induction messages generalizing reconnects with
  | nil => cases h
  | cons payload messages ih =>
    rw [List.map_cons, raisedError] at h
    rw [deliver]
    simp only
    split_ifs with herror hgo
    · have hgo : (classifyStreamMessage payload).kind ≠ .goAway := by simp [herror.2]
      rw [throughGoAway_cons hgo, List.find?_cons_of_pos (by simpa using herror)] at h
      cases h
      rfl
    · simp [throughGoAway_cons_goAway hgo, hgo] at h
    · rw [throughGoAway_cons hgo, List.find?_cons_of_neg (by simpa using herror)] at h
      exact ih 0 h

theorem yields_behind {log : List (Action σ)} (h : ∀ action ∈ log, action.isBehind) :
    yields log = [] ∧ opens log = 0 := by
  constructor
  · apply List.filterMap_eq_nil_iff.2
    intro action haction
    have hbehind := h action haction
    cases action with
    | yielded => cases hbehind
    | _ => rfl
  · apply List.countP_eq_zero.2
    intro action haction
    have hbehind := h action haction
    cases action with
    | opened => cases hbehind
    | _ => simp

/-! ## A whole run -/

namespace TradeStationStream

variable (stream : TradeStationStream)

/-- One turn of the loop, on a delivery. -/
theorem connect_delivers (reconnects : ℕ) (delivery : Delivery σ) :
    let (log, next) := stream.connect reconnects delivery.toConnection
    yields log = shown stream.raiseOnError delivery.events ∧ opens log = 1 ∧
      ∀ error, raisedError stream.raiseOnError delivery.events = some error →
        next = .inl (.raised (streamError error)) := by
  have hevents : delivery.events =
      (delivery.arrived.map Message.value).map classifyStreamMessage := by
    rw [List.map_map]
    rfl
  obtain ⟨hlog, hrest⟩ := consume_delivery stream.raiseOnError reconnects delivery
  rcases hconsume : consume stream.raiseOnError .init reconnects delivery.failure delivery.steps
    with ⟨actions, reconnects', stop⟩
  rw [hconsume] at hlog hrest
  obtain ⟨hquiet, hquiet'⟩ := yields_behind (afterConnection_isBehind stream.reconnectPolicy
    delivery.toConnection reconnects' stop)
  rw [stream.connect_eq reconnects delivery.toConnection hconsume, hevents]
  refine ⟨?_, ?_, fun error h => ?_⟩
  · rw [yields_opened, yields_append, hquiet, List.append_nil, ← yields_withoutSource, hlog,
      yields_deliver]
  · rw [opens_opened, opens_append, hquiet', ← opens_withoutSource, hlog, opens_deliver]
  · have hstop : stop = .failed (streamError error) := by
      rw [← deliver_raisedError (σ := σ) reconnects delivery.failure h, ← hrest]
    rw [hstop]
    rfl

/-- One turn of the loop does not see the chunks. -/
theorem connect_congr (reconnects : ℕ) {d d' : Delivery σ} (h : d.SameButChunks d') :
    withoutSource (stream.connect reconnects d.toConnection).1 =
        withoutSource (stream.connect reconnects d'.toConnection).1 ∧
      (stream.connect reconnects d.toConnection).2 =
        (stream.connect reconnects d'.toConnection).2 := by
  have harrived : d.arrived = d'.arrived := by
    rw [Delivery.arrived, Delivery.arrived, h.messages, h.received]
  have hafter : ∀ r stop, afterConnection stream.reconnectPolicy d.toConnection r stop =
      afterConnection stream.reconnectPolicy d'.toConnection r stop := by
    intro r stop
    unfold afterConnection
    rw [h.sleep, h.sleepAgain]
  obtain ⟨hlog, hrest⟩ := consume_delivery stream.raiseOnError reconnects d
  obtain ⟨hlog', hrest'⟩ := consume_delivery stream.raiseOnError reconnects d'
  rw [← harrived, ← h.failure, ← hlog] at hlog'
  rw [← harrived, ← h.failure, ← hrest] at hrest'
  rcases hconsume : consume stream.raiseOnError .init reconnects d.failure d.steps with
    ⟨actions, reconnects', stop⟩
  rcases hconsume' : consume stream.raiseOnError .init reconnects d.failure d'.steps with
    ⟨actions', _⟩
  rw [hconsume, hconsume'] at hlog' hrest'
  cases hrest'
  rw [stream.connect_eq reconnects d.toConnection hconsume,
    stream.connect_eq reconnects d'.toConnection (h.failure ▸ hconsume'), hafter]
  refine ⟨?_, rfl⟩
  rw [withoutSource_opened, withoutSource_opened, withoutSource_append, withoutSource_append,
    hlog']

/-- A run yields, delivery by delivery, what each of them shows; an error that it raises is the
end of it. -/
theorem run_delivers (reconnects : ℕ) (deliveries : List (Delivery σ)) :
    let (log, outcome) := stream.run reconnects (deliveries.map Delivery.toConnection)
    opens log ≤ deliveries.length ∧
      yields log = ((deliveries.take (opens log)).flatMap fun delivery =>
        shown stream.raiseOnError delivery.events) ∧
      ∀ (i : ℕ) (delivery : Delivery σ) (error : StreamEvent), i < opens log →
        deliveries[i]? = some delivery →
        raisedError stream.raiseOnError delivery.events = some error →
        opens log = i + 1 ∧ outcome = .raised (streamError error) := by
  induction deliveries generalizing reconnects with
  | nil => simp [run, opens, yields]
  | cons delivery deliveries ih =>
    have hconnect := stream.connect_delivers reconnects delivery
    rw [List.map_cons, run]
    rcases hc : stream.connect reconnects delivery.toConnection with ⟨log, outcome | reconnects'⟩
    · -- the run ends here: only this delivery was opened
      simp only [hc] at hconnect ⊢
      obtain ⟨hyields, hopens, herror⟩ := hconnect
      refine ⟨by simp [hopens], by simp [hopens, hyields], fun i d error hi hd h => ?_⟩
      obtain rfl : i = 0 := by omega
      obtain rfl : delivery = d := by simpa using hd
      exact ⟨hopens, Sum.inl.inj (herror error h)⟩
    · simp only [hc] at hconnect ⊢
      obtain ⟨hyields, hopens, herror⟩ := hconnect
      obtain ⟨hlen, hrest, hraised⟩ := ih reconnects'
      rcases hrun : stream.run reconnects' (deliveries.map Delivery.toConnection) with
        ⟨log', outcome⟩
      simp only [hrun] at hlen hrest hraised
      have hcount : opens (log ++ log') = opens log' + 1 := by
        rw [opens_append, hopens, Nat.add_comm]
      refine ⟨by simp only [hcount, List.length_cons]; omega, ?_, fun i d error hi hd h => ?_⟩
      · simp only [hcount]
        rw [yields_append, hyields, hrest, List.take_succ_cons, List.flatMap_cons]
      · cases i with
        | zero =>
          obtain rfl : delivery = d := by simpa using hd
          cases herror error h
        | succ i =>
          simp only [hcount] at hi ⊢
          rw [List.getElem?_cons_succ] at hd
          have := hraised i d error (by omega) hd h
          exact ⟨by omega, this.2⟩

theorem run_congr (reconnects : ℕ) {deliveries deliveries' : List (Delivery σ)}
    (h : List.Forall₂ Delivery.SameButChunks deliveries deliveries') :
    withoutSource (stream.run reconnects (deliveries.map Delivery.toConnection)).1 =
        withoutSource (stream.run reconnects (deliveries'.map Delivery.toConnection)).1 ∧
      (stream.run reconnects (deliveries.map Delivery.toConnection)).2 =
        (stream.run reconnects (deliveries'.map Delivery.toConnection)).2 := by
  induction h generalizing reconnects with
  | nil => exact ⟨rfl, rfl⟩
  | @cons d d' deliveries deliveries' hd _ ih =>
    obtain ⟨hlog, hnext⟩ := stream.connect_congr reconnects hd
    rw [List.map_cons, List.map_cons, run, run]
    rcases hc : stream.connect reconnects d.toConnection with ⟨log, outcome | reconnects'⟩ <;>
      rcases hc' : stream.connect reconnects d'.toConnection with ⟨log', next'⟩ <;>
      simp only [hc, hc'] at hlog hnext <;> subst hnext
    · exact ⟨hlog, rfl⟩
    · obtain ⟨hlog', hrest⟩ := ih reconnects'
      exact ⟨by simp only [withoutSource_append, hlog, hlog'], hrest⟩

/-- The events of a run are those of the messages that arrived, delivery by delivery. -/
structure DeliversExactly (deliveries : List (Delivery σ)) (log : List (Action σ))
    (outcome : Outcome) : Prop where
  opened : opens log ≤ deliveries.length
  /-- Each connection in order, through its first GoAway and before an error that is raised. -/
  events : yields log = (deliveries.take (opens log)).flatMap fun delivery =>
    shown stream.raiseOnError delivery.events
  /-- An error that is raised ends the run. -/
  error : ∀ (i : ℕ) (delivery : Delivery σ) (error : StreamEvent), i < opens log →
    deliveries[i]? = some delivery →
    raisedError stream.raiseOnError delivery.events = some error →
    opens log = i + 1 ∧ outcome = .raised (streamError error)
  /-- Deliveries in other chunks give the same run. -/
  chunks : ∀ deliveries', List.Forall₂ Delivery.SameButChunks deliveries deliveries' →
    withoutSource (stream.events (deliveries'.map Delivery.toConnection)).1 =
        withoutSource log ∧
      (stream.events (deliveries'.map Delivery.toConnection)).2 = outcome

/-- **Event delivery across reconnects is exact**, for any connections on which well-formed streams
arrive in any chunks, up to any point, and which then close or fail. -/
theorem events_deliversExactly (deliveries : List (Delivery σ)) :
    stream.DeliversExactly deliveries
      (stream.events (deliveries.map Delivery.toConnection)).1
      (stream.events (deliveries.map Delivery.toConnection)).2 := by
  obtain ⟨hopened, hevents, herror⟩ := stream.run_delivers 0 deliveries
  refine ⟨hopened, hevents, herror, fun deliveries' h => ?_⟩
  obtain ⟨hlog, houtcome⟩ := stream.run_congr 0 h
  exact ⟨hlog.symm, houtcome.symm⟩

end TradeStationStream

end

end TradeStation.Stream
