import TradeStation.Stream.Scanner

/-!
# The parser does not see the chunks

A well-formed stream is a list of messages, each an object text with whitespace around it,
encoded in UTF-8. However its bytes are cut into chunks, the parser returns the messages in order,
each from the feed that delivers its last byte.

* `drain_append`: taking messages off a buffer and going on with what is left is taking them off
  the whole.
* `drain_prefix`: at any cut of a well-formed stream, exactly the messages completed by then come
  off, and nothing is malformed.
* `feedAll_prefix`: so the feeds together return the messages completed, whatever the chunks.
-/

namespace TradeStation.Stream

open Python Python.Json

/-- A message of a stream: an object text with whitespace around it, and the object it is. -/
structure Message where
  before : List Char
  text : List Char
  after : List Char
  value : Dict
  before_ws : Ws before
  after_ws : Ws after
  isObject : ObjectText text value

/-- The bytes of a message up to the last one of its object. -/
def Message.body (message : Message) : List UInt8 := utf8Encode (message.before ++ message.text)

/-- The bytes of a message. -/
def Message.bytes (message : Message) : List UInt8 := message.body ++ utf8Encode message.after

/-- The bytes of a stream. -/
def streamBytes (messages : List Message) : List UInt8 := messages.flatMap Message.bytes

/-- The messages whose last byte is among the first `n` bytes of the stream. -/
def completed : List Message → ℕ → List Message
  | [], _ => []
  | message :: messages, n =>
    if message.body.length ≤ n then
      message :: completed messages (n - message.bytes.length)
    else []

theorem Message.body_pos (message : Message) : 0 < message.body.length := by
  obtain ⟨u, ht, -⟩ := objectText_inv message.isObject
  rw [List.length_pos_iff, Ne, body, utf8Encode_eq_nil_iff]
  simp [ht]

theorem completed_zero (messages : List Message) : completed messages 0 = [] := by
  cases messages with
  | nil => rfl
  | cons message messages =>
    rw [completed, if_neg]
    have := message.body_pos
    omega

/-- All messages of a stream are completed at its end. -/
theorem completed_all (messages : List Message) :
    completed messages (streamBytes messages).length = messages := by
  induction messages with
  | nil => rfl
  | cons message messages ih =>
    have hlen : (streamBytes (message :: messages)).length =
        message.bytes.length + (streamBytes messages).length := by simp [streamBytes]
    have hbody : message.body.length ≤ message.bytes.length := by simp [Message.bytes]
    rw [completed, if_pos (by omega), hlen, Nat.add_sub_cancel_left, ih]

/-! ## Leading whitespace -/

theorem isSpace_of_isWs {c : Char} (h : isWs c = true) : isSpace c.toNat = true := by
  simp only [isWs, Bool.or_eq_true, decide_eq_true_eq] at h
  rcases h with ((rfl | rfl) | rfl) | rfl <;> decide

theorem lstrip_ws {w : List Char} (h : Ws w) (s : List Char) : lstrip (w ++ s) = lstrip s :=
  List.dropWhile_append_of_pos fun c hc => isSpace_of_isWs (h c hc)

theorem lstrip_brace (s : List Char) : lstrip ('{' :: s) = '{' :: s := rfl

theorem lstrip_split (s : List Char) :
    ∃ w, (∀ c ∈ w, isSpace c.toNat = true) ∧ s = w ++ lstrip s :=
  ⟨s.takeWhile fun c => isSpace c.toNat, fun c hc => by simpa using List.mem_takeWhile_imp hc,
    (List.takeWhile_append_dropWhile).symm⟩

/-- Stripping what is left after stripping changes nothing. -/
theorem lstrip_append (s t : List Char) : lstrip (s ++ t) = lstrip (lstrip s ++ t) := by
  obtain ⟨w, hw, hs⟩ := lstrip_split s
  conv_lhs => rw [hs, List.append_assoc]
  exact List.dropWhile_append_of_pos hw

/-! ## The loop of `feed` -/

/-- One turn of the loop. -/
theorem drain_eq (buffer : List Char) :
    drain buffer =
      if lstrip buffer = [] then (.ok [], [])
      else match rawDecode (lstrip buffer) with
        | none =>
          if looksIncomplete (lstrip buffer) then (.ok [], lstrip buffer)
          else (.error (.streamParse (.malformed (lstrip buffer))), lstrip buffer)
        | some (.obj decoded, rest) =>
          ((drain rest).1.map (decoded :: ·), (drain rest).2)
        | some _ => (.error (.streamParse .notObject), lstrip buffer) := by
  rw [drain]
  congr 1
  split
  · next h => rw [h]
  · next decoded rest h =>
    rw [h]
    dsimp only
    rcases drain rest with ⟨_ | _, _⟩ <;> rfl
  · next v hv h =>
    rw [h]
    obtain ⟨v, rest⟩ := v
    cases v with
    | obj decoded => exact absurd rfl (hv decoded rest)
    | _ => rfl

theorem drain_blank {buffer : List Char} (h : lstrip buffer = []) :
    drain buffer = (.ok [], []) := by
  rw [drain_eq, if_pos h]

theorem drain_incomplete {buffer : List Char} (hne : lstrip buffer ≠ [])
    (hdecode : rawDecode (lstrip buffer) = none) (h : looksIncomplete (lstrip buffer) = true) :
    drain buffer = (.ok [], lstrip buffer) := by
  simp [drain_eq buffer, hne, hdecode, h]

theorem drain_object {buffer rest : List Char} {decoded : Dict}
    (h : rawDecode (lstrip buffer) = some (.obj decoded, rest)) :
    drain buffer = ((drain rest).1.map (decoded :: ·), (drain rest).2) := by
  have hne : lstrip buffer ≠ [] := by
    intro hnil
    rw [hnil] at h
    cases h
  rw [drain_eq buffer, if_neg hne, h]

/-- Only the stripped buffer counts. -/
theorem drain_congr {s t : List Char} (h : lstrip s = lstrip t) : drain s = drain t := by
  rw [drain_eq s, drain_eq t, h]

/-- A text that decodes to an object does not start with whitespace. -/
theorem lstrip_of_decoded {s r : List Char} {decoded : Dict}
    (h : rawDecode s = some (.obj decoded, r)) (t : List Char) : lstrip (s ++ t) = s ++ t := by
  obtain ⟨u, rfl, hu⟩ := value_sound h
  obtain ⟨v, rfl, -⟩ := objectText_inv (objectText_of_value hu)
  rfl

/-- **Taking messages off a buffer and going on with what is left** is taking them off the
whole. -/
theorem drain_append {buffer left : List Char} {messages : List Dict}
    (h : drain buffer = (.ok messages, left)) (more : List Char) :
    drain (buffer ++ more) =
      ((drain (left ++ more)).1.map (messages ++ ·), (drain (left ++ more)).2) := by
  have hid : ∀ r : Except Exc (List Dict) × List Char, (r.1.map ([] ++ ·), r.2) = r := by
    rintro ⟨_ | _, _⟩ <;> rfl
  induction hn : buffer.length using Nat.strong_induction_on generalizing buffer messages with
  | _ n ih =>
    subst hn
    by_cases hnil : lstrip buffer = []
    · rw [drain_blank hnil] at h
      cases h
      rw [hid]
      exact drain_congr (by rw [lstrip_append, hnil])
    · rw [drain_eq, if_neg hnil] at h
      split at h
      · split_ifs at h
        · cases h
          rw [hid]
          exact drain_congr (lstrip_append buffer more)
        · cases h
      · next decoded rest hdecode =>
        have hlt : rest.length < buffer.length :=
          lt_of_lt_of_le (rawDecode_length hdecode) (List.dropWhile_sublist _).length_le
        have hmore := rawDecode_append hdecode more
        have hstrip : lstrip (buffer ++ more) = lstrip buffer ++ more := by
          rw [lstrip_append, lstrip_of_decoded hdecode]
        obtain ⟨messages', hrest, rfl⟩ : ∃ ms, drain rest = (.ok ms, left) ∧
            messages = decoded :: ms := by
          rcases hr : drain rest with ⟨exc | ms, left'⟩
          · rw [hr] at h
            cases h
          · rw [hr] at h
            cases h
            exact ⟨ms, rfl, rfl⟩
        rw [drain_object (by rw [hstrip, hmore]), ih _ hlt hrest rfl]
        obtain ⟨_ | _, _⟩ := drain (left ++ more) <;> rfl
      · cases h

/-! ## Cuts of a well-formed stream -/

/-- A cut of an encoded text: the characters completed by then are a start of the text, and all of
it only at its end. -/
theorem utf8Decode_cut {cs : List Char} {fed future : List UInt8}
    (h : fed ++ future = utf8Encode cs) :
    ∃ ds pending rest, utf8Decode [] fed = some (ds, pending) ∧ cs = ds ++ rest ∧
      utf8Decode pending future = some (rest, []) ∧ (future ≠ [] → rest ≠ []) := by
  have hdecode := utf8Decode_encode cs
  rw [← h, utf8Decode_append, Option.bind_eq_some_iff] at hdecode
  obtain ⟨⟨ds, pending⟩, hfed, hfuture⟩ := hdecode
  obtain ⟨⟨rest, pending'⟩, hrest, he⟩ := Option.map_eq_some_iff.1 hfuture
  obtain ⟨hcs, rfl⟩ : ds ++ rest = cs ∧ pending' = [] := by simpa using he
  exact ⟨ds, pending, rest, hfed, hcs.symm, hrest, utf8Decode_ne_nil hrest⟩

/-- Nothing comes off a message that is cut before its end. -/
theorem drain_cut {message : Message} {cs rest : List Char}
    (h : message.before ++ message.text = cs ++ rest) (hrest : rest ≠ []) :
    ∃ left, drain cs = (.ok [], left) := by
  rcases List.append_eq_append_iff.1 h with ⟨q, rfl, hq⟩ | ⟨q, hq, -⟩
  · by_cases hnil : q = []
    · refine ⟨[], drain_blank ?_⟩
      rw [hnil, lstrip_ws message.before_ws]
      rfl
    · obtain ⟨u, ht, -⟩ := objectText_inv message.isObject
      obtain ⟨c, q, rfl⟩ := List.exists_cons_of_ne_nil hnil
      obtain rfl : c = '{' := by
        rw [ht, List.cons_append, List.cons.injEq] at hq
        exact hq.1.symm
      have hstrip : lstrip (message.before ++ '{' :: q) = '{' :: q := by
        rw [lstrip_ws message.before_ws, lstrip_brace]
      refine ⟨_, drain_incomplete (by simp [hstrip]) ?_ ?_⟩
      · rw [hstrip]
        exact rawDecode_prefix message.isObject hq (by simp) hrest
      · rw [hstrip]
        exact looksIncomplete_prefix message.isObject hq (by simp) hrest
  · refine ⟨[], drain_blank ?_⟩
    rw [← List.append_nil cs, lstrip_ws fun c hc => message.before_ws c (by simp [hq, hc])]
    rfl

/-- A whole message comes off the front. -/
theorem drain_message (message : Message) (cs : List Char) :
    drain (message.before ++ message.text ++ cs) =
      ((drain cs).1.map (message.value :: ·), (drain cs).2) := by
  obtain ⟨u, ht, -⟩ := objectText_inv message.isObject
  have hstrip : lstrip (message.before ++ message.text ++ cs) = message.text ++ cs := by
    rw [List.append_assoc, lstrip_ws message.before_ws, ht, List.cons_append, lstrip_brace]
  exact drain_object (by rw [hstrip, rawDecode_object message.isObject])

theorem utf8Decode_encode_append (cs : List Char) (bytes : List UInt8) :
    utf8Decode [] (utf8Encode cs ++ bytes) =
      (utf8Decode [] bytes).map fun r => (cs ++ r.1, r.2) := by
  rw [utf8Decode_append, utf8Decode_encode, Option.bind_some]

/-- Whitespace behind a message, cut anywhere, leaves nothing to take off. -/
theorem drain_after {message : Message} {messages : List Message} {fed future : List UInt8}
    (h : fed ++ future = utf8Encode message.after ++ streamBytes messages)
    (ih : ∀ fed', fed' ++ future = streamBytes messages → ∃ cs pending left,
      utf8Decode [] fed' = some (cs, pending) ∧
        drain cs = (.ok ((completed messages fed'.length).map Message.value), left) ∧
        (future = [] → left = [])) :
    ∃ cs pending left, utf8Decode [] fed = some (cs, pending) ∧
      drain cs = (.ok ((completed messages
        (fed.length - (utf8Encode message.after).length)).map Message.value), left) ∧
      (future = [] → left = []) := by
  rcases List.append_eq_append_iff.1 h with ⟨u, hu, -⟩ | ⟨fed₂, rfl, hrest⟩
  · obtain ⟨cs, pending, rest, hdecode, hcs, -⟩ := utf8Decode_cut hu.symm
    have hlen : fed.length - (utf8Encode message.after).length = 0 := by
      rw [hu, List.length_append]
      omega
    refine ⟨cs, pending, [], hdecode, ?_, fun _ => rfl⟩
    rw [hlen, completed_zero]
    refine drain_blank ?_
    rw [← List.append_nil cs, lstrip_ws fun c hc => message.after_ws c (by simp [hcs, hc])]
    rfl
  · obtain ⟨cs, pending, left, hdecode, hdrain, hleft⟩ := ih fed₂ hrest.symm
    refine ⟨message.after ++ cs, pending, left, ?_, ?_, hleft⟩
    · rw [utf8Decode_encode_append, hdecode, Option.map_some]
    · rw [List.length_append, Nat.add_sub_cancel_left, ← hdrain]
      exact drain_congr (lstrip_ws message.after_ws cs)

/-- **At any cut of a well-formed stream exactly the messages completed by then come off**, and
nothing is malformed. -/
theorem drain_prefix (messages : List Message) {fed future : List UInt8}
    (h : fed ++ future = streamBytes messages) :
    ∃ cs pending left, utf8Decode [] fed = some (cs, pending) ∧
      drain cs = (.ok ((completed messages fed.length).map Message.value), left) ∧
      (future = [] → left = []) := by
  induction messages generalizing fed with
  | nil =>
    obtain ⟨rfl, rfl⟩ := List.append_eq_nil_iff.1 h
    exact ⟨[], [], [], rfl, drain_blank rfl, fun _ => rfl⟩
  | cons message messages ih =>
    have hbytes : fed ++ future =
        message.body ++ (utf8Encode message.after ++ streamBytes messages) := by
      rw [h, streamBytes, List.flatMap_cons, Message.bytes, List.append_assoc, streamBytes]
    by_cases hbody : message.body.length ≤ fed.length
    · -- the object is whole: it comes off, and the cut is somewhere behind it
      obtain ⟨fed₁, rfl⟩ : message.body <+: fed :=
        List.prefix_of_prefix_length_le ⟨_, hbytes.symm⟩ ⟨_, rfl⟩ hbody
      rw [List.append_assoc, List.append_cancel_left_eq] at hbytes
      obtain ⟨cs, pending, left, hdecode, hdrain, hleft⟩ :=
        drain_after hbytes fun fed' hfed' => ih hfed'
      refine ⟨message.before ++ message.text ++ cs, pending, left, ?_, ?_, hleft⟩
      · rw [Message.body, utf8Decode_encode_append, hdecode, Option.map_some]
      · have hlen : (message.body ++ fed₁).length - message.bytes.length =
            fed₁.length - (utf8Encode message.after).length := by
          rw [Message.bytes, List.length_append, List.length_append, Nat.add_sub_add_left]
        rw [drain_message, hdrain, completed, if_pos hbody, hlen]
        rfl
    · -- the cut is inside the object
      obtain ⟨u, hu⟩ : fed <+: message.body :=
        List.prefix_of_prefix_length_le ⟨future, rfl⟩ ⟨_, hbytes.symm⟩ (by omega)
      have hne : u ≠ [] := by
        rintro rfl
        rw [← hu, List.append_nil] at hbody
        exact hbody le_rfl
      obtain ⟨cs, pending, rest, hdecode, hcs, -, hrest⟩ := utf8Decode_cut hu
      obtain ⟨left, hdrain⟩ := drain_cut hcs (hrest hne)
      refine ⟨cs, pending, left, hdecode, ?_, ?_⟩
      · rw [completed, if_neg hbody, hdrain, List.map_nil]
      · rintro rfl
        rw [List.append_nil] at hbytes
        rw [hbytes, List.length_append] at hbody
        omega

/-! ## Feeding the chunks -/

/-- What a parser has returned and what it holds back come from the bytes it was fed. -/
def Fed (fed : List UInt8) (returned : List Dict) (parser : JsonStreamParser) : Prop :=
  ∃ cs, utf8Decode [] fed = some (cs, parser.pending) ∧
    drain cs = (.ok returned, parser.buffer)

/-- A fresh parser has been fed nothing. -/
theorem fed_init : Fed [] [] .init := ⟨[], rfl, drain_blank rfl⟩

/-- That is what a fresh parser makes of these bytes in one feed. -/
theorem fed_iff {fed : List UInt8} {returned : List Dict} {parser : JsonStreamParser} :
    Fed fed returned parser ↔
      JsonStreamParser.init.feed (.bytes fed) = (.ok returned, parser) := by
  obtain ⟨buffer, pending⟩ := parser
  unfold Fed JsonStreamParser.feed JsonStreamParser.init
  constructor
  · rintro ⟨cs, hdecode, hdrain⟩
    simp [hdecode, hdrain]
  · intro h
    cases hdecode : utf8Decode [] fed with
    | none => simp [hdecode] at h
    | some decoded =>
      obtain ⟨cs, pending'⟩ := decoded
      simp only [hdecode, List.nil_append, Prod.mk.injEq, JsonStreamParser.mk.injEq] at h
      obtain ⟨hreturned, hbuffer, hpending⟩ := h
      exact ⟨cs, by rw [hpending], Prod.ext hreturned hbuffer⟩

/-- **One feed behind others** is the rest of a feed of all the bytes. -/
theorem Fed.feed_append {fed : List UInt8} {returned : List Dict} {parser : JsonStreamParser}
    (hfed : Fed fed returned parser) (chunk : List UInt8) :
    (JsonStreamParser.init.feed (.bytes (fed ++ chunk))).1 =
        (parser.feed (.bytes chunk)).1.map (returned ++ ·) ∧
      ∀ more parser', parser.feed (.bytes chunk) = (.ok more, parser') →
        Fed (fed ++ chunk) (returned ++ more) parser' := by
  obtain ⟨cs, hdecode, hdrain⟩ := hfed
  have hboth : utf8Decode [] (fed ++ chunk) =
      (utf8Decode parser.pending chunk).map fun r => (cs ++ r.1, r.2) := by
    rw [utf8Decode_append, hdecode, Option.bind_some]
  cases hchunk : utf8Decode parser.pending chunk with
  | none =>
    rw [hchunk] at hboth
    simp [JsonStreamParser.feed, JsonStreamParser.init, hboth, hchunk, Except.map]
  | some decoded =>
    obtain ⟨text, pending⟩ := decoded
    rw [hchunk] at hboth
    have happend := drain_append hdrain text
    refine ⟨?_, fun more parser' hmore => ?_⟩
    · simp [JsonStreamParser.feed, JsonStreamParser.init, hboth, hchunk, happend]
    · simp only [JsonStreamParser.feed, hchunk, Prod.mk.injEq] at hmore
      obtain ⟨hreturned, rfl⟩ := hmore
      exact ⟨cs ++ text, hboth, by rw [happend, hreturned]; rfl⟩

/-- One feed, at a cut of a well-formed stream. -/
theorem Fed.feed {messages : List Message} {fed chunk future : List UInt8}
    {returned : List Dict} {parser : JsonStreamParser} (hfed : Fed fed returned parser)
    (h : fed ++ chunk ++ future = streamBytes messages) :
    ∃ more parser', parser.feed (.bytes chunk) = (.ok more, parser') ∧
      Fed (fed ++ chunk) (returned ++ more) parser' := by
  obtain ⟨cs, pending, left, hdecode, hdrain, -⟩ := drain_prefix messages h
  have hwhole : Fed (fed ++ chunk) _ ⟨left, pending⟩ := ⟨cs, hdecode, hdrain⟩
  obtain ⟨happend, hfed'⟩ := hfed.feed_append chunk
  rw [fed_iff.1 hwhole] at happend
  rcases hfeed : parser.feed (.bytes chunk) with ⟨exc | more, parser'⟩
  · rw [hfeed] at happend
    cases happend
  · exact ⟨more, parser', rfl, hfed' more parser' hfeed⟩

/-- **Feeding chunk by chunk**, up to a cut of a well-formed stream. -/
theorem Fed.feedAll {messages : List Message} {chunks : List (List UInt8)} {fed future : List UInt8}
    {returned : List Dict} {parser : JsonStreamParser} (hfed : Fed fed returned parser)
    (h : fed ++ chunks.flatten ++ future = streamBytes messages) :
    ∃ lists parser', parser.feedAll (chunks.map .bytes) = (.ok lists, parser') ∧
      lists.length = chunks.length ∧
      Fed (fed ++ chunks.flatten) (returned ++ lists.flatten) parser' := by
  induction chunks generalizing fed returned parser with
  | nil => exact ⟨[], parser, rfl, rfl, by simpa using hfed⟩
  | cons chunk chunks ih =>
    rw [List.flatten_cons, ← List.append_assoc] at h
    obtain ⟨more, parser₁, hfeed, hfed₁⟩ := hfed.feed ((List.append_assoc _ _ _).symm.trans h)
    obtain ⟨lists, parser₂, hall, hlen, hfed₂⟩ := ih hfed₁ h
    refine ⟨more :: lists, parser₂, ?_, by simp [hlen], ?_⟩
    · simp [JsonStreamParser.feedAll, hfeed, hall]
    · simpa [List.append_assoc] using hfed₂

theorem utf8Decode_streamBytes (messages : List Message) :
    ∃ cs, utf8Decode [] (streamBytes messages) = some (cs, []) := by
  induction messages with
  | nil => exact ⟨[], rfl⟩
  | cons message messages ih =>
    obtain ⟨cs, hcs⟩ := ih
    rw [streamBytes] at hcs
    refine ⟨message.before ++ message.text ++ (message.after ++ cs), ?_⟩
    rw [streamBytes, List.flatMap_cons, Message.bytes, List.append_assoc, Message.body,
      utf8Decode_encode_append, utf8Decode_encode_append, hcs]
    rfl

theorem feedAll_take {parser parser' : JsonStreamParser} {chunks : List Chunk}
    {lists : List (List Dict)} (h : parser.feedAll chunks = (.ok lists, parser')) (k : ℕ) :
    ∃ parser'', parser.feedAll (chunks.take k) = (.ok (lists.take k), parser'') := by
  induction chunks generalizing parser lists k with
  | nil =>
    cases h
    exact ⟨parser', by simp [JsonStreamParser.feedAll]⟩
  | cons chunk chunks ih =>
    cases k with
    | zero => exact ⟨parser, rfl⟩
    | succ k =>
      rw [JsonStreamParser.feedAll] at h
      split at h
      · cases h
      · next more parser₁ hfeed =>
        split at h
        · next rest parser₂ hall =>
          cases h
          obtain ⟨parser₃, htake⟩ := ih hall k
          exact ⟨parser₃, by simp [JsonStreamParser.feedAll, hfeed, htake]⟩
        · cases h

/-- **The stream parser is independent of chunking.** A well-formed stream, cut into any chunks
and fed to a fresh parser, raises nothing. The lists returned by the first `k` feeds hold, in
order, exactly the messages whose last byte is in the first `k` chunks; all feeds together return
all messages, and leave the parser as it was. -/
theorem feedAll_streamBytes (messages : List Message) (chunks : List (List UInt8))
    (h : chunks.flatten = streamBytes messages) :
    ∃ lists, JsonStreamParser.init.feedAll (chunks.map .bytes) = (.ok lists, .init) ∧
      lists.length = chunks.length ∧ lists.flatten = messages.map Message.value ∧
      ∀ k, (lists.take k).flatten =
        (completed messages (chunks.take k).flatten.length).map Message.value := by
  have hcut : ∀ k, ∃ lists parser,
      JsonStreamParser.init.feedAll ((chunks.take k).map .bytes) = (.ok lists, parser) ∧
        lists.length = (chunks.take k).length ∧ Fed (chunks.take k).flatten lists.flatten parser ∧
        lists.flatten = (completed messages (chunks.take k).flatten.length).map Message.value ∧
        ((chunks.drop k).flatten = [] → parser.buffer = []) := by
    intro k
    have hbytes : (chunks.take k).flatten ++ (chunks.drop k).flatten = streamBytes messages := by
      rw [← List.flatten_append, List.take_append_drop, h]
    obtain ⟨lists, parser, hall, hlen, hfed⟩ := fed_init.feedAll hbytes
    rw [List.nil_append, List.nil_append] at hfed
    obtain ⟨cs, hdecode, hdrain⟩ := hfed
    obtain ⟨cs', pending, left, hdecode', hdrain', hleft⟩ := drain_prefix messages hbytes
    obtain ⟨rfl, rfl⟩ : cs = cs' ∧ parser.pending = pending := by simpa [hdecode] using hdecode'
    rw [hdrain] at hdrain'
    simp only [Prod.mk.injEq, Except.ok.injEq] at hdrain'
    obtain ⟨hlists, rfl⟩ := hdrain'
    exact ⟨lists, parser, hall, hlen, ⟨cs, hdecode, hdrain⟩, hlists, hleft⟩
  obtain ⟨lists, parser, hall, hlen, ⟨cs, hdecode, hdrain⟩, hlists, hleft⟩ := hcut chunks.length
  rw [List.take_length] at hall hlen hdecode hlists
  rw [h, completed_all] at hlists
  have hinit : parser = .init := by
    obtain ⟨buffer, pending⟩ := parser
    have hpending : pending = [] := by
      obtain ⟨all, hall⟩ := utf8Decode_streamBytes messages
      rw [h, hall] at hdecode
      cases hdecode
      rfl
    rw [hpending, show buffer = [] from hleft (by simp), JsonStreamParser.init]
  refine ⟨lists, hinit ▸ hall, hlen, hlists, fun k => ?_⟩
  obtain ⟨lists', parser', hall', -, -, hlists', -⟩ := hcut k
  obtain ⟨parser'', htake⟩ := feedAll_take hall k
  rw [← List.map_take, hall'] at htake
  cases htake
  exact hlists'

/-- The empty object, with a line feed behind it. -/
def emptyMessage : Message where
  before := []
  text := ['{', '}']
  after := ['\n']
  value := []
  before_ws := by simp [Ws]
  after_ws := by simp [Ws, isWs]
  isObject := by
    have hinner : Bracketed (Member fun _ _ => False) [] [] := .empty (by simp [Ws])
    exact ⟨rfl, .object (fun _ _ => False.elim) hinner⟩

/-- Two messages in four chunks: one ends at the cut, the other is cut in the middle. -/
theorem feedAll_streamBytes_emptyMessage :
    ∃ lists, JsonStreamParser.init.feedAll
        ([[0x7b, 0x7d], [], [0x0a, 0x7b], [0x7d, 0x0a]].map .bytes) = (.ok lists, .init) ∧
      lists.length = 4 ∧ lists.flatten = [[], []] ∧
      ∀ k, (lists.take k).flatten = (completed [emptyMessage, emptyMessage]
        (([[0x7b, 0x7d], [], [0x0a, 0x7b], [0x7d, 0x0a]] : List (List UInt8)).take k).flatten.length).map
          Message.value :=
  feedAll_streamBytes [emptyMessage, emptyMessage]
    [[0x7b, 0x7d], [], [0x0a, 0x7b], [0x7d, 0x0a]] (by decide)

end TradeStation.Stream
