import TradeStation.Stream.Delivery

/-!
# Good messages and a bad neighbour

A stream of messages with bad bytes behind it: what a parser that is fed the chunks returns before
it raises.

* `yields_consume`: a connection yields what its feeds return.
* `Fed.feed_last`: the feed that completes the last message raises when what it brings beyond that
  message makes a fresh parser raise.
* `goodMessages_delivered_iff`: so the messages are delivered exactly when it does not.
-/

namespace TradeStation.Stream

open Python Python.Json

/-! ## Chunks -/

/-- The bytes of some chunks. -/
def bytesOf (chunks : List Chunk) : List UInt8 := chunks.flatMap Chunk.encoded

@[simp] theorem bytesOf_nil : bytesOf [] = [] := rfl

@[simp] theorem bytesOf_cons (chunk : Chunk) (chunks : List Chunk) :
    bytesOf (chunk :: chunks) = chunk.encoded ++ bytesOf chunks := rfl

@[simp] theorem bytesOf_append (chunks chunks' : List Chunk) :
    bytesOf (chunks ++ chunks') = bytesOf chunks ++ bytesOf chunks' := List.flatMap_append

/-- The chunks up to the one with the `n`-th byte. -/
def through : List Chunk → ℕ → List Chunk
  | _, 0 => []
  | [], _ => []
  | chunk :: chunks, n + 1 => chunk :: through chunks (n + 1 - chunk.encoded.length)

/-- The last of them has that byte, and those before it do not. -/
theorem through_eq {chunks : List Chunk} {n : ℕ} (hn : 0 < n) (h : n ≤ (bytesOf chunks).length) :
    ∃ before chunk after, chunks = before ++ chunk :: after ∧
      through chunks n = before ++ [chunk] ∧ (bytesOf before).length < n ∧
      n ≤ (bytesOf before).length + chunk.encoded.length := by
  induction chunks generalizing n with
  | nil => simp only [bytesOf_nil, List.length_nil] at h; omega
  | cons chunk chunks ih =>
    obtain ⟨n, rfl⟩ : ∃ m, n = m + 1 := ⟨n - 1, by omega⟩
    rw [through]
    by_cases hlast : n + 1 ≤ chunk.encoded.length
    · rw [Nat.sub_eq_zero_of_le hlast, through]
      exact ⟨[], chunk, chunks, rfl, rfl, by simp, by simpa using hlast⟩
    · rw [bytesOf_cons, List.length_append] at h
      obtain ⟨before, last, after, rfl, hthrough, hlt, hle⟩ :=
        ih (n := n + 1 - chunk.encoded.length) (by omega) (by omega)
      refine ⟨chunk :: before, last, after, rfl, by rw [hthrough]; rfl, ?_, ?_⟩ <;>
        rw [bytesOf_cons, List.length_append] <;> omega

/-- The chunk that ends the first bytes of a stream: it brings the last of them, and what is behind. -/
theorem through_split {chunks : List Chunk} {first behind : List UInt8} (hne : first ≠ [])
    (h : bytesOf chunks = first ++ behind) :
    ∃ before chunk after start rest, chunks = before ++ chunk :: after ∧
      through chunks first.length = before ++ [chunk] ∧ bytesOf before ++ start = first ∧
      start ≠ [] ∧ chunk.encoded = start ++ rest ∧ behind = rest ++ bytesOf after := by
  obtain ⟨before, chunk, after, rfl, hthrough, hlt, hle⟩ := through_eq
    (List.length_pos_iff.2 hne) (by rw [h, List.length_append]; omega)
  rw [bytesOf_append, bytesOf_cons] at h
  obtain ⟨start, hstart⟩ : bytesOf before <+: first :=
    List.prefix_of_prefix_length_le ⟨_, rfl⟩ ⟨_, h.symm⟩ hlt.le
  obtain ⟨rest, hrest⟩ : first <+: bytesOf before ++ chunk.encoded :=
    List.prefix_of_prefix_length_le ⟨_, rfl⟩ ⟨_, by rw [← h, List.append_assoc]⟩
      (by rw [List.length_append]; exact hle)
  refine ⟨before, chunk, after, start, rest, rfl, hthrough, hstart, ?_, ?_, ?_⟩
  · rintro rfl
    rw [← hstart, List.append_nil] at hlt
    exact hlt.ne rfl
  · rw [← hstart, List.append_assoc, List.append_cancel_left_eq] at hrest
    exact hrest.symm
  · rw [← List.append_assoc, ← hrest, List.append_assoc, List.append_cancel_left_eq] at h
    exact h.symm

/-- A chunk that starts with bytes that can be decoded is fed as its bytes are. -/
theorem Chunk.feed_encoded_of_start {chunk : Chunk} {parser : JsonStreamParser}
    {start rest : List UInt8} (hchunk : chunk.encoded = start ++ rest) (hne : start ≠ [])
    (h : utf8Decode parser.pending start ≠ none) :
    parser.feed chunk = parser.feed (.bytes chunk.encoded) := by
  cases chunk with
  | bytes bs => rfl
  | text cs =>
    rw [encoded] at hchunk
    have hpending : parser.pending = [] := by
      by_contra hpending
      -- the first byte of a text continues no character
      obtain ⟨b, start, rfl⟩ := List.exists_cons_of_ne_nil hne
      have hcs : cs ≠ [] := by
        rintro rfl
        simp at hchunk
      obtain ⟨c, cs, rfl⟩ := List.exists_cons_of_ne_nil hcs
      obtain ⟨b', bs, hc, hlead⟩ := utf8EncodeChar_lead c
      rw [utf8Encode_cons, hc, List.cons_append, List.cons_append, List.cons.injEq] at hchunk
      rw [← hchunk.1] at h
      exact h (by rw [utf8Decode, utf8Step_lead hpending hlead])
    exact feed_encoded (by simp [encoded, hpending, utf8Decode_encode])

/-! ## What raises -/

/-- The loop of `feed` raises nothing but `StreamParseError`. -/
theorem drain_error {buffer : List Char} {exc : Exc} (h : (drain buffer).1 = .error exc) :
    ∃ reason, exc = .streamParse reason := by
  induction hn : buffer.length using Nat.strong_induction_on generalizing buffer with
  | _ n ih =>
    subst hn
    by_cases hblank : lstrip buffer = []
    · rw [drain_blank hblank] at h
      cases h
    · rw [drain_eq, if_neg hblank] at h
      split at h
      · split_ifs at h
        cases h
        exact ⟨_, rfl⟩
      · next decoded rest hdecode =>
        have hlt : rest.length < buffer.length :=
          lt_of_lt_of_le (rawDecode_length hdecode) (List.dropWhile_sublist _).length_le
        have herror : (drain rest).1 = .error exc := by
          cases hrest : (drain rest).1 with
          | error exc' => rwa [hrest] at h
          | ok messages =>
            rw [hrest] at h
            cases h
        exact ih _ hlt herror rfl
      · cases h
        exact ⟨_, rfl⟩

theorem feed_error {parser : JsonStreamParser} {chunk : Chunk} {exc : Exc}
    (h : (parser.feed chunk).1 = .error exc) : ∃ reason, exc = .streamParse reason := by
  cases chunk with
  | text text => exact drain_error h
  | bytes bytes =>
    cases hdecode : utf8Decode parser.pending bytes with
    | none =>
      simp only [JsonStreamParser.feed, hdecode, Except.error.injEq] at h
      exact ⟨_, h.symm⟩
    | some decoded =>
      simp only [JsonStreamParser.feed, hdecode] at h
      exact drain_error h

/-- Bytes that make a fresh parser raise `StreamParseError`. -/
def Raises (bytes : List UInt8) : Prop :=
  ∃ reason, (JsonStreamParser.init.feed (.bytes bytes)).1 = .error (.streamParse reason)

theorem not_raises_iff {bytes : List UInt8} :
    ¬Raises bytes ↔ ∃ returned parser, Fed bytes returned parser := by
  simp only [fed_iff]
  rcases hfeed : JsonStreamParser.init.feed (.bytes bytes) with ⟨exc | returned, parser⟩
  · obtain ⟨reason, rfl⟩ := feed_error (by rw [hfeed])
    constructor
    · intro h
      exact absurd ⟨reason, by rw [hfeed]⟩ h
    · rintro ⟨_, _, h⟩
      cases h
  · refine ⟨fun _ => ⟨returned, parser, rfl⟩, fun _ => ?_⟩
    rintro ⟨reason, h⟩
    rw [hfeed] at h
    cases h

/-- Behind a feed that returns, the other feeds raise. -/
theorem feedAll_cons_error {parser parser' : JsonStreamParser} {chunk : Chunk}
    {chunks : List Chunk} {messages : List Dict} {exc : Exc}
    (h : parser.feed chunk = (.ok messages, parser')) :
    (parser.feedAll (chunk :: chunks)).1 = .error exc ↔ (parser'.feedAll chunks).1 = .error exc := by
  rw [JsonStreamParser.feedAll, h]
  rcases hall : parser'.feedAll chunks with ⟨exc | lists, parser''⟩ <;> simp [hall]

/-- **The feeds of a text raise exactly when a fresh parser does**, fed the chunks up to one of them at
once. -/
theorem Fed.feedAll_raises_iff {chunks : List Chunk} {fed : List UInt8} {returned : List Dict}
    {parser : JsonStreamParser} (hfed : Fed fed returned parser)
    (h : utf8Decode [] (fed ++ bytesOf chunks) ≠ none) :
    (∃ reason, (parser.feedAll chunks).1 = .error (.streamParse reason)) ↔
      ∃ early, early <+: chunks ∧ Raises (fed ++ bytesOf early) := by
  have hquiet : ¬Raises fed := not_raises_iff.2 ⟨returned, parser, hfed⟩
  induction chunks generalizing fed returned parser with
  | nil =>
    constructor
    · rintro ⟨reason, herror⟩
      cases herror
    · rintro ⟨early, hearly, hraises⟩
      rw [List.prefix_nil.1 hearly, bytesOf_nil, List.append_nil] at hraises
      exact absurd hraises hquiet
  | cons chunk chunks ih =>
    rw [bytesOf_cons, ← List.append_assoc] at h
    have hchunk : utf8Decode parser.pending chunk.encoded ≠ none := by
      have ⟨_, hdecode, _⟩ := hfed
      intro hnone
      rw [utf8Decode_append, utf8Decode_append, hdecode, Option.bind_some, hnone] at h
      exact h rfl
    have ⟨hmore, hnext⟩ := hfed.feed_append chunk.encoded
    rw [← Chunk.feed_encoded hchunk] at hmore hnext
    rcases hfeed : parser.feed chunk with ⟨exc | more, parser'⟩
    · obtain ⟨reason, rfl⟩ := feed_error (by rw [hfeed])
      rw [hfeed] at hmore
      have hone : bytesOf [chunk] = chunk.encoded := by simp
      have herror : (parser.feedAll (chunk :: chunks)).1 = .error (.streamParse reason) := by
        rw [JsonStreamParser.feedAll, hfeed]
      exact ⟨fun _ => ⟨[chunk], ⟨chunks, rfl⟩, reason, by rw [hone, hmore]; rfl⟩,
        fun _ => ⟨reason, herror⟩⟩
    · have hfed' := hnext more parser' hfeed
      have hrest := ih hfed' h (not_raises_iff.2 ⟨_, _, hfed'⟩)
      simp only [feedAll_cons_error hfeed]
      refine hrest.trans ⟨?_, ?_⟩
      · rintro ⟨early, hearly, hraises⟩
        refine ⟨chunk :: early, (List.prefix_cons_inj chunk).2 hearly, ?_⟩
        rwa [bytesOf_cons, ← List.append_assoc]
      · rintro ⟨early, hearly, hraises⟩
        rcases List.prefix_cons_iff.1 hearly with rfl | ⟨early', rfl, hearly'⟩
        · rw [bytesOf_nil, List.append_nil] at hraises
          exact absurd hraises hquiet
        · rw [bytesOf_cons, ← List.append_assoc] at hraises
          exact ⟨early', hearly', hraises⟩

/-! ## What is returned -/

/-- The messages that the feeds return before one of them raises. -/
def JsonStreamParser.returned (parser : JsonStreamParser) : List Chunk → List Dict
  | [] => []
  | chunk :: chunks =>
    match parser.feed chunk with
    | (.error _, _) => []
    | (.ok messages, parser) => messages ++ parser.returned chunks

/-- Feeds of the chunks of a well-formed stream raise nothing. -/
theorem Fed.returned_append {messages : List Message} {chunks : List Chunk}
    {fed future : List UInt8} {returned : List Dict} {parser : JsonStreamParser}
    (hfed : Fed fed returned parser) (h : fed ++ bytesOf chunks ++ future = streamBytes messages) :
    ∃ more parser', Fed (fed ++ bytesOf chunks) (returned ++ more) parser' ∧
      ∀ after, parser.returned (chunks ++ after) = more ++ parser'.returned after := by
  induction chunks generalizing fed returned parser with
  | nil => exact ⟨[], parser, by simpa using hfed, fun _ => rfl⟩
  | cons chunk chunks ih =>
    rw [bytesOf_cons, ← List.append_assoc] at h
    obtain ⟨more, parser₁, hfeed, hfed₁⟩ := hfed.feed_chunk chunk
      ((List.append_assoc _ _ _).symm.trans h)
    obtain ⟨more', parser₂, hfed₂, hafter⟩ := ih hfed₁ h
    refine ⟨more ++ more', parser₂, ?_, fun after => ?_⟩
    · simpa [List.append_assoc] using hfed₂
    · rw [List.cons_append, JsonStreamParser.returned, hfeed, List.append_assoc, ← hafter]

section
variable {σ : Type}

/-- The chunks among the steps of a source. -/
def chunksOf (steps : List (σ ⊕ Chunk)) : List Chunk := steps.filterMap Sum.getRight?

theorem received_eq (steps : List (σ ⊕ Chunk)) : received steps = bytesOf (chunksOf steps) := by
  induction steps with
  | nil => rfl
  | cons step steps ih =>
    cases step with
    | inl effect => exact ih
    | inr chunk => exact congrArg (chunk.encoded ++ ·) ih

/-- What is shown of some messages and those behind them. -/
theorem shown_append (raiseOnError : Bool) (reconnects : ℕ) (messages more : List Dict) :
    shown raiseOnError ((messages ++ more).map classifyStreamMessage) =
      match emit (σ := σ) raiseOnError reconnects messages with
      | (actions, _, some _) => yields actions
      | (actions, _, none) => yields actions ++ shown raiseOnError (more.map classifyStreamMessage) := by
  rw [← yields_deliver (σ := σ) raiseOnError reconnects none, deliver_append]
  rcases emit (σ := σ) raiseOnError reconnects messages with ⟨actions, reconnects', _ | stop⟩
  · simp only
    rw [yields_append, yields_deliver]
  · rfl

/-- Of more messages no less is shown. -/
theorem shown_prefix (raiseOnError : Bool) (messages more : List Dict) :
    shown raiseOnError (messages.map classifyStreamMessage) <+:
      shown raiseOnError ((messages ++ more).map classifyStreamMessage) := by
  have hmessages := shown_append (σ := Empty) raiseOnError 0 messages []
  have hmore := shown_append (σ := Empty) raiseOnError 0 messages more
  rw [List.append_nil] at hmessages
  rw [hmessages, hmore]
  rcases emit (σ := Empty) raiseOnError 0 messages with ⟨actions, _, _ | stop⟩
  · have hnone : shown raiseOnError (([] : List Dict).map classifyStreamMessage) = [] := rfl
    simp only [hnone, List.append_nil]
    exact List.prefix_append _ _
  · exact List.prefix_rfl

/-- **A connection yields what its feeds return**, as far as it shows them. -/
theorem yields_consume (raiseOnError : Bool) (parser : JsonStreamParser) (reconnects : ℕ)
    (failure : Option Exc) (steps : List (σ ⊕ Chunk)) :
    yields (consume raiseOnError parser reconnects failure steps).1 =
      shown raiseOnError ((parser.returned (chunksOf steps)).map classifyStreamMessage) := by
  induction steps generalizing parser reconnects with
  | nil => cases failure <;> rfl
  | cons step steps ih =>
    cases step with
    | inl effect => exact ih parser reconnects
    | inr chunk =>
      have hchunks : chunksOf (.inr chunk :: steps) = chunk :: chunksOf steps := rfl
      rw [hchunks, consume, JsonStreamParser.returned]
      rcases parser.feed chunk with ⟨exc | messages, parser'⟩
      · rfl
      · simp only
        rw [shown_append (σ := σ) raiseOnError reconnects]
        rcases emit (σ := σ) raiseOnError reconnects messages with ⟨actions, reconnects', _ | stop⟩
        · simp only
          rw [yields_append, ih]
        · rfl

theorem opens_emit (raiseOnError : Bool) (reconnects : ℕ) (messages : List Dict) :
    opens (emit (σ := σ) raiseOnError reconnects messages).1 = 0 := by
  induction messages generalizing reconnects with
  | nil => rfl
  | cons payload messages ih =>
    rw [emit]
    simp only
    split_ifs
    · rfl
    · rfl
    · exact ih 0

theorem opens_consume (raiseOnError : Bool) (parser : JsonStreamParser) (reconnects : ℕ)
    (failure : Option Exc) (steps : List (σ ⊕ Chunk)) :
    opens (consume raiseOnError parser reconnects failure steps).1 = 0 := by
  induction steps generalizing parser reconnects with
  | nil => cases failure <;> rfl
  | cons step steps ih =>
    cases step with
    | inl effect => exact ih parser reconnects
    | inr chunk =>
      rw [consume]
      rcases parser.feed chunk with ⟨exc | messages, parser'⟩
      · rfl
      · have hemit := opens_emit (σ := σ) raiseOnError reconnects messages
        rcases hactions : emit (σ := σ) raiseOnError reconnects messages with
          ⟨actions, reconnects', _ | stop⟩ <;> simp only [hactions] at hemit ⊢
        · rw [opens_append, hemit, ih]
        · exact hemit

end

/-! ## Good messages -/

/-- The bytes of some messages up to the last one of the last object. -/
def goodBytes (messages : List Message) : List UInt8 :=
  streamBytes messages.dropLast ++ messages.getLast?.elim [] Message.body

theorem goodBytes_concat (messages : List Message) (last : Message) :
    goodBytes (messages ++ [last]) = streamBytes messages ++ last.body := by
  simp [goodBytes]

/-- What is fed behind whole messages. -/
theorem Fed.trans {fed fed' : List UInt8} {returned returned' : List Dict}
    {parser : JsonStreamParser} (h : Fed fed returned .init) (h' : Fed fed' returned' parser) :
    Fed (fed ++ fed') (returned ++ returned') parser :=
  (h.feed_append fed').2 returned' parser (fed_iff.1 h')

theorem fed_streamBytes (messages : List Message) :
    Fed (streamBytes messages) (messages.map Message.value) .init := by
  obtain ⟨cs, pending, left, hdecode, hdrain, hleft⟩ :=
    drain_prefix messages (List.append_nil (streamBytes messages))
  obtain ⟨cs', hdecode'⟩ := utf8Decode_streamBytes messages
  rw [hdecode', Option.some.injEq, Prod.mk.injEq] at hdecode
  obtain ⟨rfl, rfl⟩ := hdecode
  rw [completed_all, hleft rfl] at hdrain
  exact ⟨cs', hdecode', hdrain⟩

theorem fed_goodBytes (messages : List Message) :
    Fed (goodBytes messages) (messages.map Message.value) .init := by
  rcases List.eq_nil_or_concat messages with rfl | ⟨messages, last, rfl⟩
  · exact fed_init
  · have hlast : Fed last.body [last.value] .init := by
      refine ⟨last.before ++ last.text, utf8Decode_encode _, ?_⟩
      have hmessage := drain_message last []
      have hnothing : drain [] = (.ok [], []) := drain_blank rfl
      rw [List.append_nil, hnothing] at hmessage
      exact hmessage
    rw [List.concat_eq_append, goodBytes_concat, List.map_append]
    exact (fed_streamBytes messages).trans hlast

/-- **The feed that completes the last message** returns it with what a fresh parser makes of the rest
of the chunk, and raises when that parser does. -/
theorem Fed.feed_last {messages : List Message} {fed start rest : List UInt8}
    {returned : List Dict} {parser : JsonStreamParser} {chunk : Chunk}
    (hfed : Fed fed returned parser) (hgood : fed ++ start = goodBytes messages)
    (hstart : start ≠ []) (hchunk : chunk.encoded = start ++ rest) :
    (parser.feed chunk).1.map (returned ++ ·) =
      (JsonStreamParser.init.feed (.bytes rest)).1.map (messages.map Message.value ++ ·) := by
  have ⟨_, hdecode, _⟩ := hfed
  have ⟨_, hdecode', _⟩ := fed_goodBytes messages
  have hbytes : parser.feed chunk = parser.feed (.bytes chunk.encoded) := by
    refine Chunk.feed_encoded_of_start hchunk hstart fun hnone => ?_
    rw [← hgood, utf8Decode_append, hdecode, Option.bind_some, hnone] at hdecode'
    cases hdecode'
  have hboth := (hfed.feed_append chunk.encoded).1
  rw [hchunk, ← List.append_assoc, hgood, ((fed_goodBytes messages).feed_append rest).1] at hboth
  rw [hbytes, hchunk, hboth]

section
variable {messages : List Message} {fed start rest : List UInt8} {returned : List Dict}
  {parser : JsonStreamParser} {chunk : Chunk} (hfed : Fed fed returned parser)
  (hgood : fed ++ start = goodBytes messages) (hstart : start ≠ [])
  (hchunk : chunk.encoded = start ++ rest)

include hfed hgood hstart hchunk

theorem Fed.raises_of_feed_last {exc : Exc} (h : (parser.feed chunk).1 = .error exc) :
    Raises rest := by
  obtain ⟨reason, rfl⟩ := feed_error h
  have hlast := hfed.feed_last hgood hstart hchunk
  rw [h] at hlast
  cases hrest : (JsonStreamParser.init.feed (.bytes rest)).1 with
  | error exc =>
    rw [hrest] at hlast
    cases hlast
    exact ⟨reason, hrest⟩
  | ok returned =>
    rw [hrest] at hlast
    cases hlast

theorem Fed.returned_of_feed_last {more : List Dict} (h : (parser.feed chunk).1 = .ok more) :
    ¬Raises rest ∧ messages.map Message.value <+: returned ++ more := by
  have hlast := hfed.feed_last hgood hstart hchunk
  rw [h] at hlast
  cases hrest : (JsonStreamParser.init.feed (.bytes rest)).1 with
  | error exc =>
    rw [hrest] at hlast
    cases hlast
  | ok returned' =>
    rw [hrest] at hlast
    refine ⟨?_, returned', (Except.ok.inj hlast).symm⟩
    rintro ⟨reason, herror⟩
    rw [hrest] at herror
    cases herror

end

/-- The last message is not completed before its last byte. -/
theorem completed_length_le (messages : List Message) (last : Message) {n : ℕ}
    (h : n < (goodBytes (messages ++ [last])).length) :
    (completed (messages ++ [last]) n).length ≤ messages.length := by
  rw [goodBytes_concat] at h
  induction messages generalizing n with
  | nil =>
    have hbody : ¬last.body.length ≤ n := by simpa [streamBytes] using h
    simp [completed, hbody]
  | cons message messages ih =>
    rw [List.cons_append, completed]
    split_ifs
    · have hbody := last.body_pos
      have hcons : streamBytes (message :: messages) = message.bytes ++ streamBytes messages := rfl
      rw [hcons, List.append_assoc, List.length_append, List.length_append] at h
      rw [List.length_cons, List.length_cons]
      refine Nat.succ_le_succ (ih ?_)
      rw [List.length_append]
      omega
    · simp

/-- The steps of a source that delivers some messages, and bytes behind them. -/
structure Spoilt (σ : Type) where
  steps : List (σ ⊕ Chunk)
  messages : List Message
  bad : List UInt8
  arrives : received steps = streamBytes messages ++ bad

namespace Spoilt

variable {σ : Type} (spoilt : Spoilt σ)

/-- What the chunk with the last byte of the last object brings behind it. -/
def shared : List UInt8 :=
  (bytesOf (through (chunksOf spoilt.steps) (goodBytes spoilt.messages).length)).drop
    (goodBytes spoilt.messages).length

/-- **The messages are delivered**, whatever raises behind them: some feeds return them, and a session
that comes to this connection yields their events, as far as it shows them. -/
structure Delivers : Prop where
  returned : spoilt.messages.map Message.value <+:
    JsonStreamParser.init.returned (chunksOf spoilt.steps)
  yielded : ∀ (stream : TradeStationStream) (before after : List (Connection σ))
    (connection : Connection σ), connection.steps = spoilt.steps →
    before.length < opens (stream.events (before ++ connection :: after)).1 →
    ∃ log log', (stream.events (before ++ connection :: after)).1 = log ++ log' ∧
      opens log = before.length ∧
      shown stream.raiseOnError
        (spoilt.messages.map fun message => classifyStreamMessage message.value) <+: yields log'

/-- The feed that completes the last message raises exactly when what it brings behind that message
does, and then the message is not returned. -/
theorem returned_iff : spoilt.messages.map Message.value <+:
      JsonStreamParser.init.returned (chunksOf spoilt.steps) ↔ ¬Raises spoilt.shared := by
  rcases List.eq_nil_or_concat spoilt.messages with hnil | ⟨messages, last, hmessages⟩
  · have hshared : spoilt.shared = [] := by simp [shared, hnil, goodBytes, streamBytes, through]
    rw [hnil, hshared]
    exact ⟨fun _ => not_raises_iff.2 ⟨[], .init, fed_init⟩, fun _ => List.nil_prefix⟩
  rw [List.concat_eq_append] at hmessages
  have hgood : goodBytes spoilt.messages ++ utf8Encode last.after = streamBytes spoilt.messages := by
    rw [hmessages, goodBytes_concat, List.append_assoc]
    simp [streamBytes, Message.bytes]
  have harrives : bytesOf (chunksOf spoilt.steps) =
      goodBytes spoilt.messages ++ (utf8Encode last.after ++ spoilt.bad) := by
    rw [← received_eq, spoilt.arrives, ← hgood, List.append_assoc]
  have hpos : 0 < (goodBytes spoilt.messages).length := by
    have hbody := last.body_pos
    rw [hmessages, goodBytes_concat, List.length_append]
    omega
  -- the chunk ends the good bytes with `start`, and brings `rest` behind them
  obtain ⟨before, chunk, after, start, rest, hchunks, hthrough, hstart, hne, hchunk, -⟩ :=
    through_split (List.length_pos_iff.1 hpos) harrives
  have hshared : spoilt.shared = rest := by
    rw [shared, hthrough, bytesOf_append, bytesOf_cons, bytesOf_nil, List.append_nil, hchunk,
      ← List.append_assoc, hstart, List.drop_left]
  have hwhole : [] ++ bytesOf before ++ (start ++ utf8Encode last.after) =
      streamBytes spoilt.messages := by
    rw [List.nil_append, ← hgood, ← hstart, List.append_assoc]
  obtain ⟨done, parser, hfed, hreturned⟩ := fed_init.returned_append hwhole
  rw [List.nil_append, List.nil_append] at hfed
  rw [hchunks, hreturned, JsonStreamParser.returned, hshared]
  rcases hfeed : parser.feed chunk with ⟨exc | more, parser'⟩
  · -- what came before the chunk lacks the last message
    have hraises : Raises rest := hfed.raises_of_feed_last hstart hne hchunk (by rw [hfeed])
    simp only [hraises, not_true_eq_false, iff_false]
    intro hprefix
    have hlength := hprefix.length_le
    have hstartPos := List.length_pos_iff.2 hne
    have hlt : (bytesOf before).length < (goodBytes (messages ++ [last])).length := by
      rw [← hmessages, ← hstart, List.length_append]
      omega
    have hcompleted := completed_length_le messages last hlt
    rw [hfed.returned_eq hwhole, List.append_nil, List.length_map, List.length_map, hmessages,
      List.length_append, List.length_singleton] at hlength
    omega
  · obtain ⟨hraises, hprefix⟩ := hfed.returned_of_feed_last hstart hne hchunk (by rw [hfeed])
    refine iff_of_true ?_ hraises
    rw [← List.append_assoc]
    exact hprefix.trans (List.prefix_append _ _)

end Spoilt

namespace TradeStationStream

variable {σ : Type} (stream : TradeStationStream)

/-- One turn of the loop yields what the feeds of the connection return, as far as it shows them. -/
theorem yields_connect (reconnects : ℕ) (connection : Connection σ) :
    yields (stream.connect reconnects connection).1 =
        shown stream.raiseOnError
          ((JsonStreamParser.init.returned (chunksOf connection.steps)).map classifyStreamMessage) ∧
      opens (stream.connect reconnects connection).1 = 1 := by
  have hyields := yields_consume stream.raiseOnError .init reconnects connection.failure
    connection.steps
  have hopens := opens_consume stream.raiseOnError .init reconnects connection.failure
    connection.steps
  rcases hconsume : consume stream.raiseOnError .init reconnects connection.failure
    connection.steps with ⟨actions, reconnects', stop⟩
  rw [hconsume] at hyields hopens
  obtain ⟨hquiet, hquiet'⟩ := yields_behind (afterConnection_isBehind stream.reconnectPolicy
    connection reconnects' stop)
  rw [stream.connect_eq reconnects connection hconsume]
  constructor
  · rw [yields_opened, yields_append, hquiet, List.append_nil, hyields]
  · rw [opens_opened, opens_append, hquiet', hopens]

/-- A run over some connections ends with one of them, or goes on with what is behind them. -/
theorem run_append (reconnects : ℕ) (before after : List (Connection σ)) :
    opens (stream.run reconnects (before ++ after)).1 ≤ before.length ∨
      ∃ log reconnects', opens log = before.length ∧
        stream.run reconnects (before ++ after) =
          (log ++ (stream.run reconnects' after).1, (stream.run reconnects' after).2) := by
  induction before generalizing reconnects with
  | nil => exact .inr ⟨[], reconnects, rfl, rfl⟩
  | cons connection before ih =>
    have hopens := (stream.yields_connect reconnects connection).2
    rw [List.cons_append, run]
    rcases hconnect : stream.connect reconnects connection with ⟨log, outcome | reconnects'⟩
    · rw [hconnect] at hopens
      exact .inl (by simp [hopens])
    · rw [hconnect] at hopens
      rcases ih reconnects' with hle | ⟨log', reconnects'', hlog', hrun⟩
      · exact .inl (by simp only [opens_append, hopens, List.length_cons]; omega)
      · refine .inr ⟨log ++ log', reconnects'', ?_, ?_⟩
        · rw [opens_append, hopens, hlog', List.length_cons, Nat.add_comm]
        · simp only [hrun, List.append_assoc]

/-- A run begins with its first turn. -/
theorem yields_run_cons (reconnects : ℕ) (connection : Connection σ)
    (after : List (Connection σ)) :
    yields (stream.connect reconnects connection).1 <+:
      yields (stream.run reconnects (connection :: after)).1 := by
  rw [run]
  rcases stream.connect reconnects connection with ⟨log, outcome | reconnects'⟩
  · exact List.prefix_rfl
  · simp only [yields_append]
    exact List.prefix_append _ _

end TradeStationStream

/-- **Good messages are delivered exactly when the chunk that completes the last of them brings nothing
that makes a parser raise.** Otherwise the last one is lost. -/
theorem goodMessages_delivered_iff {σ : Type} (spoilt : Spoilt σ) :
    spoilt.Delivers ↔ ¬Raises spoilt.shared := by
  refine ⟨fun h => spoilt.returned_iff.1 h.returned, fun h => ?_⟩
  have hreturned := spoilt.returned_iff.2 h
  refine ⟨hreturned, fun stream before after connection hsteps hreached => ?_⟩
  obtain ⟨more, hmore⟩ := hreturned
  rcases stream.run_append 0 before (connection :: after) with hle | ⟨log, reconnects, hlog, hrun⟩
  · exact absurd hreached (not_lt.2 hle)
  · refine ⟨log, _, by rw [TradeStationStream.events, hrun], hlog, ?_⟩
    refine List.IsPrefix.trans ?_ (stream.yields_run_cons reconnects connection after)
    have hshown := shown_prefix stream.raiseOnError (spoilt.messages.map Message.value) more
    rw [hmore, List.map_map] at hshown
    rw [(stream.yields_connect reconnects connection).1, hsteps]
    exact hshown

/-- One chunk with a message and a text that is none. -/
def spoiltChunk : Spoilt Empty where
  steps := [.inr (.text ['{', '}', '\n', 'x'])]
  messages := [emptyMessage]
  bad := [0x78]
  arrives := by decide

/-- The message in that chunk is lost. -/
theorem spoiltChunk_not_delivers : Raises spoiltChunk.bad ∧ ¬spoiltChunk.Delivers := by
  have hraises : ∀ buffer, lstrip buffer = ['x'] → (drain buffer).1 =
      .error (.streamParse (.malformed ['x'])) := by
    intro buffer hbuffer
    have hdecode : rawDecode ['x'] = none := by decide
    have hlooks : looksIncomplete ['x'] = false := by decide
    rw [drain_eq, hbuffer, hdecode]
    simp [hlooks]
  have hbad : ∀ bytes cs, utf8Decode [] bytes = some (cs, []) → lstrip cs = ['x'] →
      Raises bytes := by
    intro bytes cs hdecode hstrip
    refine ⟨.malformed ['x'], ?_⟩
    simp only [JsonStreamParser.feed, JsonStreamParser.init, hdecode]
    exact hraises _ hstrip
  refine ⟨hbad [0x78] ['x'] (by decide) (by decide), fun h => ?_⟩
  refine spoiltChunk.returned_iff.1 h.returned ?_
  exact hbad [0x0a, 0x78] ['\n', 'x'] (by decide) (by decide)

end TradeStation.Stream
