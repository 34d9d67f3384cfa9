import TradeStation.Stream.Feeding

/-!
# A malformed message that is closed

A message whose brackets close and that is no object can never become one, whatever follows it. The
parser asks `looksIncomplete` of the whole buffer, and so of what follows as well.

* `Closed`: brackets are counted outside strings, and a backslash outside a string is a character
  like any other.
* `Closed.unique`: no object text but a closed text itself starts at its start.
* `Blocked.reportedInTime_iff`: so a malformed message that is closed is reported in time exactly when at the
  end of some chunk, up to the one with its last character, what is buffered from it on does not
  look incomplete.
-/

namespace TradeStation.Stream

open Python Python.Json

/-! ## Closed texts -/

/-- One character of a scan that counts brackets outside strings. -/
def bracketChar (scan : Scan) (char : Char) : Option Scan :=
  if scan.inString = false ∧ char = '\\' then some scan else scanChar scan char

/-- The scan of a text from a state. -/
def bracketText (scan : Scan) (t : List Char) : Option Scan := t.foldlM bracketChar scan

/-- A text starts with a brace, and its last character is the bracket that closes it. -/
structure Closed (t : List Char) : Prop where
  head : t.head? = some '{'
  /-- Before its end a bracket is open. -/
  within : ∀ p u, t = p ++ u → p ≠ [] → u ≠ [] →
    ∃ scan, bracketText ⟨[], false, false⟩ p = some scan ∧ scan.stack ≠ []
  closes : bracketText ⟨[], false, false⟩ t = some ⟨[], false, false⟩

/-- A text of a scan inside a string if `b` and outside if not, to the end of its strings: no backslash
stands outside a string. -/
inductive Lexed : Bool → List Char → Prop
  | nil : Lexed false []
  | char {b c t} (hb : c ≠ '\\') (hq : c ≠ '"') (h : Lexed b t) : Lexed b (c :: t)
  | quote {b t} (h : Lexed (!b) t) : Lexed b ('"' :: t)
  | escape (e : Char) {t} (h : Lexed true t) : Lexed true ('\\' :: e :: t)

namespace Lexed

variable {b : Bool} {t u : List Char}

theorem append (ht : Lexed b t) (hu : Lexed false u) : Lexed b (t ++ u) := by
  induction ht with
  | nil => exact hu
  | char hb hq _ ih => exact .char hb hq ih
  | quote _ ih => exact .quote ih
  | escape e _ ih => exact .escape e ih

theorem character {n : ℕ} (h : Character t n) (hu : Lexed true u) : Lexed true (t ++ u) := by
  cases h with
  | plain c hc hq hb => exact .char hb hq hu
  | escape e n he h => exact .escape e hu
  | unicode a b c d n h =>
    simp only [hex4, Option.bind_eq_bind, Option.bind_eq_some_iff] at h
    obtain ⟨_, ha, _, hb, _, hc, _, hd, -⟩ := h
    have digit : ∀ {x m t}, hexDigit x = some m → Lexed true t → Lexed true (x :: t) :=
      fun hx ht => .char (hexDigit_ne hx).1 (hexDigit_ne hx).2 ht
    exact .escape 'u' (digit ha (digit hb (digit hc (digit hd hu))))

theorem stringBody {cs : PyStr} (h : StringBody t cs) (hu : Lexed true u) :
    Lexed true (t ++ u) := by
  induction h with
  | nil => exact hu
  | cons h _ ih =>
    rw [List.append_assoc]
    exact character h ih

/-- No backslash stands outside a string in a text of a value. -/
theorem kept : Kept (Lexed false) where
  neutral t h := by
    induction t with
    | nil => exact .nil
    | cons c t ih =>
      exact .char (h c List.mem_cons_self).1 (h c List.mem_cons_self).2.1
        (ih fun d hd => h d (List.mem_cons_of_mem c hd))
  append _ _ := append
  string _ _ h := .quote (stringBody h (.quote .nil))
  array _ h := .char (by decide) (by decide) (h.append (.char (by decide) (by decide) .nil))
  object _ h := .char (by decide) (by decide) (h.append (.char (by decide) (by decide) .nil))

/-- A character other than a quote and a backslash opens and closes no string. -/
theorem scanChar_char {c : Char} (hb : c ≠ '\\') (hq : c ≠ '"') (stack : List Char) :
    scanChar ⟨stack, b, false⟩ c = none ∨
      ∃ stack', scanChar ⟨stack, b, false⟩ c = some ⟨stack', b, false⟩ := by
  simp only [scanChar, Bool.false_eq_true, if_false, if_neg hb, if_neg hq]
  cases b with
  | true => exact .inr ⟨stack, rfl⟩
  | false =>
    simp only [Bool.false_eq_true, if_false]
    split_ifs
    · exact .inr ⟨_, rfl⟩
    · cases stack with
      | nil => exact .inl rfl
      | cons top stack =>
        by_cases htop : top = '{'
        · exact .inr ⟨stack, by simp [htop]⟩
        · exact .inl (by simp [htop])
    · cases stack with
      | nil => exact .inl rfl
      | cons top stack =>
        by_cases htop : top = '['
        · exact .inr ⟨stack, by simp [htop]⟩
        · exact .inl (by simp [htop])
    · exact .inr ⟨stack, rfl⟩

/-- There the two scans agree, at every cut. -/
theorem bracketText_eq (h : Lexed b t) (stack : List Char) {p v : List Char} (ht : t = p ++ v) :
    bracketText ⟨stack, b, false⟩ p = scanText ⟨stack, b, false⟩ p := by
  induction h generalizing stack p with
  | nil =>
    obtain ⟨rfl, rfl⟩ := List.append_eq_nil_iff.1 ht.symm
    rfl
  | @char b c t hb hq _ ih =>
    cases p with
    | nil => rfl
    | cons d p =>
      obtain ⟨rfl, htail⟩ := List.cons.inj ht
      have hstep : bracketChar ⟨stack, b, false⟩ c = scanChar ⟨stack, b, false⟩ c := by
        simp [bracketChar, hb]
      rcases scanChar_char (b := b) hb hq stack with hscan | ⟨stack', hscan⟩
      · simp [bracketText, scanText, hstep, hscan]
      · simpa [bracketText, scanText, hstep, hscan] using ih stack' htail
  | @quote b t _ ih =>
    cases p with
    | nil => rfl
    | cons d p =>
      obtain ⟨rfl, htail⟩ := List.cons.inj ht
      simpa [bracketText, scanText, bracketChar, scanChar] using ih stack htail
  | @escape e t _ ih =>
    cases p with
    | nil => rfl
    | cons c p =>
      obtain ⟨rfl, htail⟩ := List.cons.inj ht
      cases p with
      | nil => simp [bracketText, scanText, bracketChar]
      | cons d p =>
        obtain ⟨rfl, hrest⟩ := List.cons.inj htail
        simpa [bracketText, scanText, bracketChar, scanChar] using ih stack hrest

end Lexed

/-! ## What starts with a closed text -/

/-- An object text is closed. -/
theorem closed_objectText {t : List Char} {d : Dict} (h : ObjectText t d) : Closed t := by
  have hlexed := Lexed.kept.value h.2
  refine ⟨h.1, fun p u hp hne hu => ?_, ?_⟩
  · obtain ⟨opened, b, e, hscan⟩ := scanText_inside h hp hne hu
    exact ⟨_, (hlexed.bracketText_eq [] hp).trans hscan, by simp⟩
  · rw [hlexed.bracketText_eq [] (List.append_nil _).symm, (kept_passes.value h.2).through]

/-- **Two closed texts that one text starts with are the same.** -/
theorem Closed.unique {t t' r r' : List Char} (h : Closed t) (h' : Closed t')
    (heq : t ++ r = t' ++ r') : t = t' := by
  have hshorter : ∀ {t t' q : List Char}, Closed t → Closed t' → t' = t ++ q → q = [] := by
    intro t t' q ht ht' hq
    by_contra hne
    have htne : t ≠ [] := by
      rintro rfl
      cases ht.head
    obtain ⟨scan, hscan, hstack⟩ := ht'.within t q hq htne hne
    rw [ht.closes] at hscan
    cases hscan
    exact hstack rfl
  rcases List.append_eq_append_iff.1 heq with ⟨q, hq, -⟩ | ⟨q, hq, -⟩
  · rw [hq, hshorter h h' hq, List.append_nil]
  · rw [hq, hshorter h' h hq, List.append_nil]

/-! ## Malformed messages -/

/-- A malformed message that is closed, with whitespace before it. -/
structure Malformed where
  before : List Char
  text : List Char
  before_ws : Ws before
  closed : Closed text
  notObject : ∀ d, ¬ObjectText text d

namespace Malformed

variable (malformed : Malformed)

/-- The bytes of a malformed message. -/
def bytes : List UInt8 := utf8Encode (malformed.before ++ malformed.text)

theorem text_eq : ∃ v, malformed.text = '{' :: v := by
  have hhead := malformed.closed.head
  cases htext : malformed.text with
  | nil => simp [htext] at hhead
  | cons c v =>
    rw [htext, List.head?_cons, Option.some.injEq] at hhead
    exact ⟨v, by rw [hhead]⟩

/-- A cut behind its whitespace begins with its brace. -/
theorem lstrip_cut {cs rest later : List Char}
    (h : malformed.before ++ (malformed.text ++ later) = cs ++ rest) :
    lstrip cs = [] ∨ ∃ p, lstrip cs = '{' :: p ∧ malformed.text ++ later = '{' :: p ++ rest := by
  obtain ⟨v, hv⟩ := malformed.text_eq
  rcases List.append_eq_append_iff.1 h with ⟨p, rfl, hp⟩ | ⟨p, hp, -⟩
  · rw [lstrip_ws malformed.before_ws]
    cases p with
    | nil => exact .inl rfl
    | cons c p =>
      have hc : '{' = c := by
        rw [hv, List.cons_append, List.cons_append, List.cons.injEq] at hp
        exact hp.1
      rw [← hc, lstrip_brace]
      exact .inr ⟨p, rfl, by rw [hp, hc]⟩
  · rw [← List.append_nil cs, lstrip_ws fun c hc => malformed.before_ws c (by simp [hp, hc])]
    exact .inl rfl

/-- It decodes to nothing, wherever it is cut and whatever follows it. -/
theorem rawDecode_eq_none {p rest later : List Char}
    (h : malformed.text ++ later = '{' :: p ++ rest) : rawDecode ('{' :: p) = none := by
  rw [Option.eq_none_iff_forall_not_mem]
  rintro ⟨v, r⟩ hv
  obtain ⟨t, d, hp, -, ht⟩ := rawDecode_brace hv rfl
  rw [hp, List.append_assoc] at h
  rw [← malformed.closed.unique (closed_objectText ht) h] at ht
  exact malformed.notObject d ht

/-- **What is buffered from a malformed message on raises when it does not look incomplete.** -/
theorem raises_iff {fed future : List UInt8} {later : List Char}
    (h : fed ++ future = malformed.bytes ++ utf8Encode later) :
    Raises fed ↔ ∃ cs pending, utf8Decode [] fed = some (cs, pending) ∧ lstrip cs ≠ [] ∧
      looksIncomplete (lstrip cs) = false := by
  rw [bytes, ← utf8Encode_append, List.append_assoc] at h
  obtain ⟨cs, pending, rest, hdecode, hcs, -, -⟩ := utf8Decode_cut h
  have hraises : Raises fed ↔ ∃ reason, (drain cs).1 = .error (.streamParse reason) := by
    simp only [Raises, JsonStreamParser.feed, JsonStreamParser.init, hdecode, List.nil_append]
  have hcut : (∃ cs' pending', utf8Decode [] fed = some (cs', pending') ∧ lstrip cs' ≠ [] ∧
      looksIncomplete (lstrip cs') = false) ↔
        lstrip cs ≠ [] ∧ looksIncomplete (lstrip cs) = false := by
    rw [hdecode]
    constructor
    · rintro ⟨_, _, ⟨⟩, h⟩
      exact h
    · exact fun h => ⟨cs, pending, rfl, h⟩
  rw [hraises, hcut, drain_eq]
  rcases malformed.lstrip_cut hcs with hblank | ⟨p, hp, htext⟩
  · simp [hblank]
  · rw [hp, malformed.rawDecode_eq_none htext]
    cases looksIncomplete ('{' :: p) <;> simp

/-- With no backslash outside its strings, it does not count. -/
theorem looksIncomplete_append (hlexed : Lexed false malformed.text) (cs : List Char) :
    looksIncomplete (malformed.text ++ cs) = looksIncomplete cs := by
  have hscan : scanText ⟨[], false, false⟩ malformed.text = some ⟨[], false, false⟩ := by
    rw [← hlexed.bracketText_eq [] (List.append_nil _).symm, malformed.closed.closes]
  have happend := scanText_append ⟨[], false, false⟩ malformed.text cs
  rw [hscan, Option.bind_some, scanText, scanText] at happend
  rw [looksIncomplete, looksIncomplete, happend]

/-- With no backslash outside its strings, it looks incomplete up to its end. -/
theorem looksIncomplete_start (hlexed : Lexed false malformed.text) {p rest : List Char}
    (h : malformed.text = '{' :: p ++ rest) (hrest : rest ≠ []) :
    looksIncomplete ('{' :: p) = true := by
  obtain ⟨scan, hscan, hstack⟩ := malformed.closed.within _ rest h (by simp) hrest
  rw [hlexed.bracketText_eq [] h, scanText] at hscan
  simp [looksIncomplete, hscan, hstack]

end Malformed

/-! ## When it is reported -/

/-- Whole messages fed before change nothing. -/
theorem raises_streamBytes_append (messages : List Message) (fed : List UInt8) :
    Raises (streamBytes messages ++ fed) ↔ Raises fed := by
  have happend := ((fed_streamBytes messages).feed_append fed).1
  unfold Raises
  rw [happend]
  rcases JsonStreamParser.init.feed (.bytes fed) with ⟨_ | _, _⟩ <;> simp [Except.map]

/-- A malformed message on a stream: messages before it, any text behind it, and the chunks. -/
structure Blocked where
  messages : List Message
  malformed : Malformed
  later : List Char
  chunks : List Chunk
  arrives : bytesOf chunks = streamBytes messages ++ (malformed.bytes ++ utf8Encode later)

namespace Blocked

variable (blocked : Blocked)

/-- The number of bytes up to the last one of the malformed message. -/
def reach : ℕ := (streamBytes blocked.messages).length + blocked.malformed.bytes.length

/-- **The malformed message is reported** no later than by the feed that delivers its last character. -/
def ReportedInTime : Prop :=
  ∃ reason, (JsonStreamParser.init.feedAll (through blocked.chunks blocked.reach)).1 =
    .error (.streamParse reason)

theorem decodes {chunks : List Chunk} (h : chunks <+: blocked.chunks) :
    utf8Decode [] (bytesOf chunks) ≠ none := by
  obtain ⟨rest, hrest⟩ := h
  obtain ⟨cs, hcs⟩ := utf8Decode_streamBytes blocked.messages
  have hall : utf8Decode [] (bytesOf blocked.chunks) ≠ none := by
    rw [blocked.arrives, Malformed.bytes, ← utf8Encode_append, utf8Decode_append, hcs,
      Option.bind_some, utf8Decode_encode]
    simp
  intro hnone
  rw [← hrest, bytesOf_append, utf8Decode_append, hnone] at hall
  exact hall rfl

/-- What is buffered from the malformed message on, of the first bytes of the stream, is text that does
not look incomplete. -/
def Shows (fed : List UInt8) : Prop :=
  ∃ cs pending, utf8Decode [] (fed.drop (streamBytes blocked.messages).length) =
    some (cs, pending) ∧ lstrip cs ≠ [] ∧ looksIncomplete (lstrip cs) = false

theorem raises_iff {fed future : List UInt8} (h : fed ++ future = bytesOf blocked.chunks) :
    Raises fed ↔ blocked.Shows fed := by
  unfold Shows
  rw [blocked.arrives] at h
  rcases List.append_eq_append_iff.1 h with ⟨rest, hrest, -⟩ | ⟨fed', rfl, hfed'⟩
  · have hdrop : fed.drop (streamBytes blocked.messages).length = [] :=
      List.drop_eq_nil_of_le (by rw [hrest, List.length_append]; omega)
    rw [hdrop]
    constructor
    · intro hraises
      obtain ⟨cs, pending, left, hdecode, hdrain, -⟩ := drain_prefix blocked.messages hrest.symm
      exact absurd hraises (not_raises_iff.2 ⟨_, ⟨left, pending⟩, cs, hdecode, hdrain⟩)
    · rintro ⟨_, _, ⟨⟩, hne, -⟩
      exact absurd rfl hne
  · rw [raises_streamBytes_append, List.drop_left]
    exact blocked.malformed.raises_iff hfed'.symm

/-- The chunks up to the one with the last byte of the malformed message, and fewer of them. -/
theorem through_cut :
    ∃ rest future, rest ++ future = utf8Encode blocked.later ∧
      bytesOf (through blocked.chunks blocked.reach) =
        streamBytes blocked.messages ++ (blocked.malformed.bytes ++ rest) ∧
      through blocked.chunks blocked.reach <+: blocked.chunks ∧
      ∀ early, early <+: through blocked.chunks blocked.reach →
        early = through blocked.chunks blocked.reach ∨ (bytesOf early).length < blocked.reach := by
  have hbytes : blocked.malformed.bytes ≠ [] := by
    obtain ⟨v, hv⟩ := blocked.malformed.text_eq
    rw [Malformed.bytes, Ne, utf8Encode_eq_nil_iff, hv]
    simp
  have harrives := blocked.arrives
  rw [← List.append_assoc] at harrives
  obtain ⟨before, chunk, after, start, rest, hchunks, hthrough, hstart, hne, hchunk, hlater⟩ :=
    through_split (List.append_ne_nil_of_right_ne_nil _ hbytes) harrives
  rw [List.length_append, ← reach] at hthrough
  refine ⟨rest, bytesOf after, hlater.symm, ?_, ⟨after, by rw [hthrough, hchunks]; simp⟩, ?_⟩
  · rw [hthrough, bytesOf_append, bytesOf_cons, bytesOf_nil, List.append_nil, hchunk,
      ← List.append_assoc, hstart, List.append_assoc]
  · intro early hearly
    rw [hthrough] at hearly ⊢
    rcases List.prefix_concat_iff.1 hearly with heq | ⟨between, rfl⟩
    · exact .inl heq
    · have hlength := congrArg List.length hstart
      have hstartPos := List.length_pos_iff.2 hne
      rw [bytesOf_append, List.length_append, List.length_append, List.length_append, ← reach]
        at hlength
      exact .inr (by omega)

/-- Before its last byte nothing shows, with no backslash outside its strings. -/
theorem not_shows_of_lt (hlexed : Lexed false blocked.malformed.text) {fed future : List UInt8}
    (h : fed ++ future = bytesOf blocked.chunks) (hlt : fed.length < blocked.reach) :
    ¬blocked.Shows fed := by
  rintro ⟨cs, pending, hdecode, hne, hlooks⟩
  rw [blocked.arrives] at h
  rcases List.append_eq_append_iff.1 h with ⟨rest, hrest, -⟩ | ⟨fed', rfl, hfed'⟩
  · rw [List.drop_eq_nil_of_le (by rw [hrest, List.length_append]; omega)] at hdecode
    cases hdecode
    exact hne rfl
  · rw [List.drop_left] at hdecode
    rw [reach, List.length_append] at hlt
    obtain ⟨missing, hmissing⟩ : fed' <+: blocked.malformed.bytes :=
      List.prefix_of_prefix_length_le ⟨_, hfed'.symm⟩ ⟨_, rfl⟩ (by omega)
    obtain ⟨ds, pending', rest, hdecode', hcut, -, hrest⟩ := utf8Decode_cut hmissing
    rw [hdecode, Option.some.injEq, Prod.mk.injEq] at hdecode'
    obtain ⟨rfl, -⟩ := hdecode'
    have hmore : missing ≠ [] := by
      rintro rfl
      rw [← hmissing, List.append_nil] at hlt
      omega
    have hcut' : blocked.malformed.before ++ (blocked.malformed.text ++ []) = cs ++ rest := by
      simpa using hcut
    rcases blocked.malformed.lstrip_cut hcut' with hblank | ⟨p, hp, htext⟩
    · exact hne hblank
    · rw [List.append_nil] at htext
      rw [hp, blocked.malformed.looksIncomplete_start hlexed htext (hrest hmore)] at hlooks
      cases hlooks

/-- At its last byte, what shows is what comes behind it. -/
theorem shows_append_iff (hlexed : Lexed false blocked.malformed.text) {rest : List UInt8}
    {cs : List Char} {pending : List UInt8} (hdecode : utf8Decode [] rest = some (cs, pending)) :
    blocked.Shows (streamBytes blocked.messages ++ (blocked.malformed.bytes ++ rest)) ↔
      looksIncomplete cs = false := by
  obtain ⟨v, hv⟩ := blocked.malformed.text_eq
  have hstrip : lstrip (blocked.malformed.before ++ blocked.malformed.text ++ cs) =
      blocked.malformed.text ++ cs := by
    rw [List.append_assoc, lstrip_ws blocked.malformed.before_ws, hv, List.cons_append, lstrip_brace]
  have hne : blocked.malformed.text ++ cs ≠ [] := by simp [hv]
  unfold Shows
  rw [List.drop_left, Malformed.bytes, utf8Decode_encode_append, hdecode]
  simp only [Option.map_some, Option.some.injEq, Prod.mk.injEq, ↓existsAndEq, true_and, and_true,
    hstrip, ne_eq, hne, not_false_eq_true, blocked.malformed.looksIncomplete_append hlexed]

/-- **A malformed message that is closed is reported in time exactly when at the end of some chunk, up
to the one with its last character, what is buffered from it on does not look incomplete.** Where no
backslash stands outside its strings, that is when what comes behind it in that chunk does not. -/
theorem reportedInTime_iff :
    (blocked.ReportedInTime ↔ ∃ early, early <+: through blocked.chunks blocked.reach ∧
      blocked.Shows (bytesOf early)) ∧
    (Lexed false blocked.malformed.text →
      (blocked.ReportedInTime ↔ ∃ cs pending,
        utf8Decode [] ((bytesOf (through blocked.chunks blocked.reach)).drop blocked.reach) =
          some (cs, pending) ∧ looksIncomplete cs = false)) := by
  obtain ⟨rest, future, hlater, hrest, hthrough, hearly⟩ := blocked.through_cut
  have hreported : blocked.ReportedInTime ↔ ∃ early,
      early <+: through blocked.chunks blocked.reach ∧ blocked.Shows (bytesOf early) := by
    rw [ReportedInTime, fed_init.feedAll_raises_iff (by simpa using blocked.decodes hthrough)]
    refine exists_congr fun early => and_congr_right fun hprefix => ?_
    obtain ⟨after, hafter⟩ := hprefix.trans hthrough
    have hfed : bytesOf early ++ bytesOf after = bytesOf blocked.chunks := by
      rw [← hafter, bytesOf_append]
    rw [List.nil_append]
    exact blocked.raises_iff hfed
  refine ⟨hreported, fun hlexed => ?_⟩
  obtain ⟨cs, pending, _, hdecode, -⟩ := utf8Decode_cut hlater
  have hreach : (bytesOf (through blocked.chunks blocked.reach)).drop blocked.reach = rest := by
    rw [hrest, ← List.append_assoc, reach, ← List.length_append, List.drop_left]
  have hshows := blocked.shows_append_iff hlexed hdecode
  rw [← hrest] at hshows
  rw [hreported, hreach, hdecode]
  constructor
  · rintro ⟨early, hprefix, hearlyShows⟩
    rcases hearly early hprefix with rfl | hlt
    · exact ⟨cs, pending, rfl, hshows.1 hearlyShows⟩
    · obtain ⟨after, hafter⟩ := hprefix.trans hthrough
      have hfed : bytesOf early ++ bytesOf after = bytesOf blocked.chunks := by
        rw [← hafter, bytesOf_append]
      exact absurd hearlyShows (blocked.not_shows_of_lt hlexed hfed hlt)
  · rintro ⟨_, _, ⟨⟩, hlooks⟩
    exact ⟨_, List.prefix_rfl, hshows.2 hlooks⟩

end Blocked

theorem ws_nil : Ws [] := by
  simp [Ws]

theorem closed_bracedWord : Closed ['{', 'x', '}'] := by
  refine ⟨rfl, fun p u h hp hu => ?_, rfl⟩
  rcases p with - | ⟨a, - | ⟨b, - | ⟨c, p⟩⟩⟩
  · exact absurd rfl hp
  · obtain ⟨rfl, -⟩ := List.cons.inj h
    exact ⟨⟨['{'], false, false⟩, rfl, List.cons_ne_nil _ _⟩
  · obtain ⟨rfl, rfl, -⟩ : '{' = a ∧ 'x' = b ∧ ['}'] = u := by simpa using h
    exact ⟨⟨['{'], false, false⟩, rfl, List.cons_ne_nil _ _⟩
  · have hlength := congrArg List.length h
    simp only [List.length_cons, List.length_append, List.length_nil] at hlength
    exact absurd (List.length_eq_zero_iff.1 (by omega)) hu

theorem not_objectText_bracedWord (d : Dict) : ¬ObjectText ['{', 'x', '}'] d := by
  intro h
  have hnone : rawDecode ['{', 'x', '}'] = none := by decide
  have hsome := rawDecode_object h []
  rw [List.append_nil, hnone] at hsome
  cases hsome

/-- A word in braces. -/
def bracedWord : Malformed where
  before := []
  text := ['{', 'x', '}']
  before_ws := ws_nil
  closed := closed_bracedWord
  notObject := not_objectText_bracedWord

/-- A chunk that ends behind the brace of the next message. -/
def bracedWordChunk : Blocked where
  messages := []
  malformed := bracedWord
  later := ['{']
  chunks := [.text ['{', 'x', '}', '{']]
  arrives := by decide

/-- The word in braces is not reported. -/
theorem bracedWordChunk_not_reported : ¬bracedWordChunk.ReportedInTime := by
  have hbuffer : drain ['{', 'x', '}', '{'] = (.ok [], ['{', 'x', '}', '{']) :=
    drain_incomplete (by decide) (by decide) (by decide)
  have hthrough : through bracedWordChunk.chunks bracedWordChunk.reach =
      [.text ['{', 'x', '}', '{']] := rfl
  rintro ⟨reason, herror⟩
  rw [hthrough] at herror
  simp [JsonStreamParser.feedAll, JsonStreamParser.feed, JsonStreamParser.init, hbuffer] at herror

end TradeStation.Stream
