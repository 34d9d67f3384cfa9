import TradeStation.Stream.Feeding

/-!
# What a closed connection leaves behind

When the source of a connection closes, `events` returns, whatever the parser still holds. Here every
byte of such a connection is accounted for.

* `Taken`: a text read as objects with blank text before each of them, and what is left of it.
* `Held.feed`: what a parser has returned, and what it holds, is what it was fed; one feed keeps that.
* `events_closed_accounts`: so a session that ends normally on a connection without a GoAway has
  yielded all it received, but for blank text and what the parser was left with.
-/

namespace TradeStation.Stream

open Python Python.Json

/-- A text read as some objects, with blank text before each of them, and what is left. -/
inductive Taken : List Char → List Dict → List Char → Prop
  | left {blank left} (hblank : ∀ c ∈ blank, isSpace c.toNat = true) :
    Taken (blank ++ left) [] left
  | object {blank t d rest values left} (hblank : ∀ c ∈ blank, isSpace c.toNat = true)
    (ht : ObjectText t d) (h : Taken rest values left) :
    Taken (blank ++ (t ++ rest)) (d :: values) left

/-- What the loop of `feed` may leave: nothing, or the start of a message. -/
def Unfinished (left : List Char) : Prop :=
  left = [] ∨ rawDecode left = none ∧ looksIncomplete left = true

/-- **The loop of `feed` takes every character**, as part of an object or as blank, but for those it
leaves. -/
theorem drain_taken {buffer left : List Char} {values : List Dict}
    (h : drain buffer = (.ok values, left)) : Taken buffer values left ∧ Unfinished left := by
  induction hn : buffer.length using Nat.strong_induction_on generalizing buffer values with
  | _ n ih =>
    subst hn
    obtain ⟨blank, hblank, hbuffer⟩ := lstrip_split buffer
    by_cases hnil : lstrip buffer = []
    · rw [drain_blank hnil] at h
      cases h
      rw [hnil] at hbuffer
      rw [hbuffer]
      exact ⟨.left hblank, .inl rfl⟩
    · rw [drain_eq, if_neg hnil] at h
      split at h
      · next hdecode =>
        split_ifs at h with hlooks
        · cases h
          have htaken : Taken (blank ++ lstrip buffer) [] (lstrip buffer) := .left hblank
          rw [← hbuffer] at htaken
          exact ⟨htaken, .inr ⟨hdecode, hlooks⟩⟩
        · cases h
      · next decoded rest hdecode =>
        have hlt : rest.length < buffer.length :=
          lt_of_lt_of_le (rawDecode_length hdecode) (List.dropWhile_sublist _).length_le
        rcases hrest : drain rest with ⟨exc | more, left'⟩
        · rw [hrest] at h
          cases h
        · rw [hrest] at h
          cases h
          obtain ⟨htaken, hleft⟩ := ih _ hlt hrest rfl
          obtain ⟨t, ht, hvalue⟩ := value_sound hdecode
          rw [hbuffer, ht]
          exact ⟨.object hblank (objectText_of_value hvalue) htaken, hleft⟩
      · cases h

/-- What a parser has returned, and what it holds, is what it was fed. -/
structure Held (chunks : List Chunk) (values : List Dict) (text : List Char)
    (parser : JsonStreamParser) : Prop where
  drained : drain text = (.ok values, parser.buffer)
  unfinished : Utf8Unfinished parser.pending
  /-- No byte is lost, and none is made up. -/
  bytes : (bytesOf chunks).Perm (utf8Encode text ++ parser.pending)
  /-- Text may come inside a character; bytes stay in order. -/
  ordered : (∀ chunk ∈ chunks, ∃ bs, chunk = .bytes bs) →
    bytesOf chunks = utf8Encode text ++ parser.pending

theorem held_init : Held [] [] [] .init where
  drained := drain_blank rfl
  unfinished := .none
  bytes := .nil
  ordered _ := rfl

/-- One feed keeps it. -/
theorem Held.feed {chunks : List Chunk} {values more : List Dict} {text : List Char}
    {parser parser' : JsonStreamParser} {chunk : Chunk} (hheld : Held chunks values text parser)
    (h : parser.feed chunk = (.ok more, parser')) :
    ∃ text', Held (chunks ++ [chunk]) (values ++ more) (text ++ text') parser' := by
  have hone : bytesOf (chunks ++ [chunk]) = bytesOf chunks ++ chunk.encoded := by simp
  cases chunk with
  | bytes bs =>
    cases hdecode : utf8Decode parser.pending bs with
    | none => simp [JsonStreamParser.feed, hdecode] at h
    | some decoded =>
      obtain ⟨text', pending⟩ := decoded
      simp only [JsonStreamParser.feed, hdecode, Prod.mk.injEq] at h
      obtain ⟨hdrained, rfl⟩ := h
      obtain ⟨hbytes, hunfinished⟩ := utf8Decode_sound hheld.unfinished hdecode
      have hall : utf8Encode text ++ parser.pending ++ bs =
          utf8Encode (text ++ text') ++ pending := by
        rw [List.append_assoc, hbytes, utf8Encode_append, List.append_assoc]
      refine ⟨text', ?_, hunfinished, ?_, fun hchunks => ?_⟩
      · rw [drain_append hheld.drained, hdrained]
        rfl
      · rw [hone, ← hall]
        exact hheld.bytes.append_right bs
      · rw [hone, ← hall, hheld.ordered fun chunk hchunk => hchunks chunk (by simp [hchunk])]
        rfl
  | text text' =>
    simp only [JsonStreamParser.feed, Prod.mk.injEq] at h
    obtain ⟨hdrained, rfl⟩ := h
    refine ⟨text', ?_, hheld.unfinished, ?_, fun hchunks => ?_⟩
    · rw [drain_append hheld.drained, hdrained]
      rfl
    · rw [hone, utf8Encode_append, List.append_assoc]
      have hcomm : List.Perm (parser.pending ++ utf8Encode text') (utf8Encode text' ++ parser.pending) :=
        List.perm_append_comm
      have hswap := hcomm.append_left (utf8Encode text)
      rw [← List.append_assoc] at hswap
      exact (hheld.bytes.append_right _).trans hswap
    · obtain ⟨bs, hbs⟩ := hchunks (.text text') (by simp)
      cases hbs

section
variable {σ : Type}

/-! ## How a connection stops -/

/-- How the loop over the messages of a chunk stops. -/
theorem emit_cases (raiseOnError : Bool) (reconnects : ℕ) (messages : List Dict) :
    let (actions, _, stop) := emit (σ := σ) raiseOnError reconnects messages
    (stop = none ∧ yields actions = messages.map classifyStreamMessage) ∨
    (stop = some .goAway ∧ ∃ payload ∈ messages, (classifyStreamMessage payload).kind = .goAway) ∨
    ∃ exc, stop = some (.failed exc) ∧ handling exc = .propagate := by
  induction messages generalizing reconnects with
  | nil => exact .inl ⟨rfl, rfl⟩
  | cons payload messages ih =>
    rw [emit]
    simp only
    split_ifs with herror hgo
    · exact .inr (.inr ⟨_, rfl, rfl⟩)
    · exact .inr (.inl ⟨rfl, payload, List.mem_cons_self, hgo⟩)
    · rcases ih 0 with ⟨hstop, hyields⟩ | ⟨hstop, payload', hmem, hgo'⟩ | hfailed
      · refine .inl ⟨hstop, ?_⟩
        rw [List.map_cons, ← hyields]
        rfl
      · exact .inr (.inl ⟨hstop, payload', List.mem_cons_of_mem _ hmem, hgo'⟩)
      · exact .inr (.inr hfailed)

/-- **How a connection stops whose source closes**: having yielded all that it was fed, with a GoAway, or
with an exception that is not caught. -/
theorem consume_cases (raiseOnError : Bool) (reconnects : ℕ) (steps : List (σ ⊕ Chunk))
    {chunks : List Chunk} {values : List Dict} {text : List Char} {parser : JsonStreamParser}
    (hheld : Held chunks values text parser) :
    let (actions, _, stop) := consume raiseOnError parser reconnects none steps
    (stop = .closed ∧ ∃ more text' parser', yields actions = more.map classifyStreamMessage ∧
      Held (chunks ++ chunksOf steps) (values ++ more) (text ++ text') parser') ∨
    (stop = .goAway ∧ ∃ payload ∈ parser.returned (chunksOf steps),
      (classifyStreamMessage payload).kind = .goAway) ∨
    ∃ exc, stop = .failed exc ∧ handling exc = .propagate := by
  induction steps generalizing chunks values text parser reconnects with
  | nil => exact .inl ⟨rfl, [], [], parser, rfl, by simpa [chunksOf] using hheld⟩
  | cons step steps ih =>
    cases step with
    | inl effect => exact ih reconnects hheld
    | inr chunk =>
      have hchunks : chunksOf (.inr chunk :: steps) = chunk :: chunksOf steps := rfl
      rw [hchunks, consume, JsonStreamParser.returned]
      rcases hfeed : parser.feed chunk with ⟨exc | messages, parser₁⟩
      · obtain ⟨reason, rfl⟩ := feed_error (by rw [hfeed])
        exact .inr (.inr ⟨_, rfl, rfl⟩)
      · obtain ⟨text₁, hheld₁⟩ := hheld.feed hfeed
        have hemit := emit_cases (σ := σ) raiseOnError reconnects messages
        rcases hresult : emit (σ := σ) raiseOnError reconnects messages with
          ⟨actions, reconnects₁, _ | stop⟩ <;> simp only [hresult] at hemit ⊢
        · -- the connection goes on behind the chunk
          have hyields : yields actions = messages.map classifyStreamMessage := by simpa using hemit
          rcases ih reconnects₁ hheld₁ with
            ⟨hstop, more, text', parser', hyields', hheld'⟩ | ⟨hstop, payload, hmem, hgo⟩ | hfailed
          · refine .inl ⟨hstop, messages ++ more, text₁ ++ text', parser', ?_, ?_⟩
            · rw [yields_append, hyields, hyields', List.map_append]
            · simpa [List.append_assoc] using hheld'
          · exact .inr (.inl ⟨hstop, payload, List.mem_append_right _ hmem, hgo⟩)
          · exact .inr (.inr hfailed)
        · rcases hemit with ⟨hstop, -⟩ | ⟨hstop, payload, hmem, hgo⟩ | ⟨exc, hstop, hexc⟩
          · cases hstop
          · exact .inr (.inl ⟨Option.some.inj hstop, payload, List.mem_append_left _ hmem, hgo⟩)
          · exact .inr (.inr ⟨exc, Option.some.inj hstop, hexc⟩)

/-! ## A session that ends normally -/

/-- **Every byte of some chunks is accounted for**: it belongs to one of some messages, or to blank text
before them, or to what is left, an unfinished message and an unfinished character. -/
structure Accounted (chunks : List Chunk) (values : List Dict) (left : List Char)
    (pending : List UInt8) : Prop where
  taken : ∃ text, Taken text values left ∧ (bytesOf chunks).Perm (utf8Encode text ++ pending) ∧
    ((∀ chunk ∈ chunks, ∃ bs, chunk = .bytes bs) → bytesOf chunks = utf8Encode text ++ pending)
  left : Unfinished left
  pending : Utf8Unfinished pending

theorem Held.accounted {chunks : List Chunk} {values : List Dict} {text : List Char}
    {parser : JsonStreamParser} (hheld : Held chunks values text parser) :
    Accounted chunks values parser.buffer parser.pending := by
  obtain ⟨htaken, hleft⟩ := drain_taken hheld.drained
  exact ⟨⟨text, htaken, hheld.bytes, hheld.ordered⟩, hleft, hheld.unfinished⟩

/-- A turn of the loop on a connection that closes without a GoAway: it ends the session normally with
all that it was fed accounted for, or it raises. -/
theorem connect_closed (stream : TradeStationStream) (reconnects : ℕ) {connection : Connection σ}
    (hfailure : connection.failure = none)
    (hgoAway : ∀ payload ∈ JsonStreamParser.init.returned (chunksOf connection.steps),
      (classifyStreamMessage payload).kind ≠ .goAway) :
    (∃ actions values left pending,
      stream.connect reconnects connection =
        (.opened reconnects :: (actions ++ [.ended]), .inl .returned) ∧
      yields actions = values.map classifyStreamMessage ∧
      Accounted (chunksOf connection.steps) values left pending) ∨
    ∃ exc, (stream.connect reconnects connection).2 = .inl (.raised exc) := by
  have hcases := consume_cases stream.raiseOnError reconnects connection.steps held_init
  rw [← hfailure] at hcases
  rcases hconsume : consume stream.raiseOnError .init reconnects connection.failure
    connection.steps with ⟨actions, reconnects', stop⟩
  simp only [hconsume, List.nil_append] at hcases
  rw [stream.connect_eq reconnects connection hconsume]
  rcases hcases with ⟨rfl, values, text, parser, hyields, hheld⟩ | ⟨-, payload, hmem, hgo⟩ |
    ⟨exc, rfl, hexc⟩
  · exact .inl ⟨actions, values, _, _, rfl, hyields, hheld.accounted⟩
  · exact absurd hgo (hgoAway payload hmem)
  · refine .inr ⟨exc, ?_⟩
    simp only [afterConnection, onException, hexc]

/-- **A session that ends normally** on a connection that closes without a GoAway has yielded every
message that it received whole. What is left then, the start of a message or of a character, is dropped
without an error. -/
theorem events_closed_accounts (stream : TradeStationStream) (before after : List (Connection σ))
    (connection : Connection σ) (hfailure : connection.failure = none)
    (hgoAway : ∀ payload ∈ JsonStreamParser.init.returned (chunksOf connection.steps),
      (classifyStreamMessage payload).kind ≠ .goAway)
    (hreached : before.length < opens (stream.events (before ++ connection :: after)).1)
    (hreturned : (stream.events (before ++ connection :: after)).2 = .returned) :
    ∃ log reconnects actions values left pending,
      (stream.events (before ++ connection :: after)).1 =
        log ++ .opened reconnects :: (actions ++ [.ended]) ∧
      opens log = before.length ∧ yields actions = values.map classifyStreamMessage ∧
      Accounted (chunksOf connection.steps) values left pending := by
  rw [TradeStationStream.events] at hreached hreturned ⊢
  rcases stream.run_append 0 before (connection :: after) with hle | ⟨log, reconnects, hlog, hrun⟩
  · exact absurd hreached (not_lt.2 hle)
  · rw [hrun, TradeStationStream.run] at hreturned ⊢
    rcases connect_closed stream reconnects hfailure hgoAway with
      ⟨actions, values, left, pending, hconnect, hyields, haccounted⟩ | ⟨exc, hconnect⟩
    · rw [hconnect]
      exact ⟨log, reconnects, actions, values, left, pending, rfl, hlog, hyields, haccounted⟩
    · rcases hturn : stream.connect reconnects connection with ⟨log', next⟩
      rw [hturn] at hconnect hreturned
      simp only at hconnect
      rw [hconnect] at hreturned
      cases hreturned

end

/-- A connection that closes behind a brace. -/
def openBrace : Connection Empty where
  steps := [.inr (.bytes [0x7b])]

theorem events_openBrace (stream : TradeStationStream) :
    stream.events [openBrace] = ([.opened 0, .ended], .returned) ∧
      JsonStreamParser.init.returned (chunksOf openBrace.steps) = [] := by
  have hdrain : drain ['{'] = (.ok [], ['{']) :=
    drain_incomplete (by decide) (by decide) (by decide)
  have hdecode : utf8Decode [] [0x7b] = some (['{'], []) := by decide
  have hfeed : JsonStreamParser.init.feed (.bytes [0x7b]) = (.ok [], ⟨['{'], []⟩) := by
    simp [JsonStreamParser.feed, JsonStreamParser.init, hdecode, hdrain]
  have hconsume : consume stream.raiseOnError .init 0 openBrace.failure openBrace.steps =
      ([], 0, .closed) := by
    simp [openBrace, consume, hfeed, emit]
  refine ⟨?_, ?_⟩
  · rw [TradeStationStream.events, TradeStationStream.run, stream.connect_eq 0 openBrace hconsume]
    rfl
  · have hchunks : chunksOf openBrace.steps = [.bytes [0x7b]] := rfl
    rw [hchunks, JsonStreamParser.returned, hfeed]
    rfl

theorem events_closed_accounts_openBrace :
    ∃ log reconnects actions values left pending,
      (TradeStationStream.events {} ([] ++ openBrace :: [])).1 =
        log ++ .opened reconnects :: (actions ++ [.ended]) ∧
      opens log = ([] : List (Connection Empty)).length ∧
      yields actions = values.map classifyStreamMessage ∧
      Accounted (chunksOf openBrace.steps) values left pending := by
  obtain ⟨hevents, hreturned⟩ := events_openBrace {}
  refine events_closed_accounts {} [] [] openBrace rfl ?_ ?_ ?_
  · simp [hreturned]
  · rw [List.nil_append, hevents]
    decide
  · rw [List.nil_append, hevents]

/-- The session ends normally, and the brace belongs to no message and is not blank. -/
theorem openBrace_left : (TradeStationStream.events {} [openBrace]).2 = .returned ∧
    ∀ values, yields (TradeStationStream.events {} [openBrace]).1 =
      values.map classifyStreamMessage →
    ¬Accounted (chunksOf openBrace.steps) values [] [] := by
  rw [(events_openBrace {}).1]
  refine ⟨rfl, fun values hvalues haccounted => ?_⟩
  obtain rfl : values = [] := List.map_eq_nil_iff.1 hvalues.symm
  obtain ⟨text, htaken, hbytes, -⟩ := haccounted.taken
  have htext : utf8Encode text = [0x7b] := by
    have hone : bytesOf (chunksOf openBrace.steps) = [0x7b] := rfl
    rw [hone, List.append_nil] at hbytes
    exact List.perm_singleton.1 hbytes.symm
  have hbrace : text = ['{'] := by
    have hdecode := utf8Decode_encode text
    rw [htext] at hdecode
    cases hdecode
    rfl
  generalize hleft : ([] : List Char) = left at htaken
  cases htaken with
  | left hblank =>
    rw [← hleft, List.append_nil] at hbrace
    rw [hbrace] at hblank
    exact absurd (hblank '{' List.mem_cons_self) (by decide)

end TradeStation.Stream
