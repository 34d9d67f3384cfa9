import TradeStation.Python.Queries

/-!
# Forms

What `urlencode` writes, `parse_qsl` reads: the pairs come back in order, but for those without a value,
which a query does not keep (`parseQsl_urlencode`). It writes whatever has an encoding
(`urlencode_of_encodable`).
-/

namespace TradeStation.Python

/-! ## One text -/

/-- A byte as `quote_plus` writes it. -/
def quotePlusByte (b : UInt8) : PyStr := if b = 0x20 then str "+" else quoteByte b

/-- What `unquote_plus` does first. -/
def plusToSpace (text : PyStr) : PyStr := text.map fun c => if c = 0x2b then 0x20 else c

theorem quotePlus_eq_some {text out : PyStr} :
    quotePlus text = some out ↔
      ∃ bs, encodeUtf8 text = some bs ∧ bs.flatMap quotePlusByte = out :=
  Option.map_eq_some_iff

theorem mem_quoteByte {b : UInt8} {c : ℕ} (h : c ∈ quoteByte b) :
    c = 0x25 ∨ isUnreserved (UInt8.ofNat c) = true ∧ c < 0x80 := by
  have hdigit : ∀ n < 16, isUnreserved (UInt8.ofNat (upperHexDigit n)) = true ∧
      upperHexDigit n < 0x80 := by decide
  have hlt := b.toNat_lt
  unfold quoteByte at h
  split_ifs at h with hb
  · obtain rfl := List.mem_singleton.1 h
    refine .inr ⟨by rwa [UInt8.ofNat_toNat], ?_⟩
    simp only [isUnreserved, Bool.or_eq_true, Bool.and_eq_true, decide_eq_true_eq, beq_iff_eq,
      UInt8.le_iff_toNat_le, ← UInt8.toNat_inj, UInt8.reduceToNat] at hb
    omega
  · simp only [List.mem_cons, List.not_mem_nil, or_false] at h
    rcases h with rfl | rfl | rfl
    · exact .inl rfl
    · exact .inr (hdigit _ (by omega))
    · exact .inr (hdigit _ (by omega))

/-- What is written has no separator, and no blank. -/
theorem mem_quotePlusByte {b : UInt8} {c : ℕ} (h : c ∈ quotePlusByte b) :
    c < 0x80 ∧ 0x20 < c ∧ c ≠ 0x26 ∧ c ≠ 0x3d ∧ c ≠ 0x3f ∧ c ≠ 0x23 := by
  unfold quotePlusByte at h
  split_ifs at h with hb
  · obtain rfl := List.mem_singleton.1 h
    decide
  · rcases mem_quoteByte h with rfl | ⟨hc, hlt⟩
    · decide
    · have hblank : ∀ d ≤ 0x20, ¬isUnreserved (UInt8.ofNat d) = true := by decide
      have hlow : 0x20 < c := not_le.1 fun hle => hblank c hle hc
      refine ⟨hlt, hlow, ?_, ?_, ?_, ?_⟩ <;> rintro rfl <;> exact absurd hc (by decide)

theorem plusToSpace_quotePlusByte (b : UInt8) :
    plusToSpace (quotePlusByte b) = if b = 0x20 then [0x20] else quoteByte b := by
  unfold quotePlusByte
  split_ifs with hb
  · rfl
  · have hkept : ∀ c ∈ quoteByte b, (if c = 0x2b then 0x20 else c) = id c := by
      intro c hc
      refine if_neg ?_
      rintro rfl
      rcases mem_quoteByte hc with h | ⟨h, -⟩
      · exact absurd h (by decide)
      · exact absurd h (by decide)
    rw [plusToSpace, List.map_congr_left hkept, List.map_id]

theorem unquoteToBytes_cons {c : ℕ} (hc : c ≠ 0x25) (rest : PyStr) :
    unquoteToBytes (c :: rest) = UInt8.ofNat c :: unquoteToBytes rest := by
  rw [unquoteToBytes]
  exact fun high low rest' hpercent => absurd hpercent hc

theorem unquoteToBytes_quoteByte (b : UInt8) (rest : PyStr) :
    unquoteToBytes (quoteByte b ++ rest) = b :: unquoteToBytes rest := by
  have hlt := b.toNat_lt
  unfold quoteByte
  split_ifs with hb
  · have hpercent : b.toNat ≠ 0x25 := by
      intro hn
      rw [show b = 0x25 from UInt8.toNat_inj.1 hn] at hb
      exact absurd hb (by decide)
    rw [List.cons_append, List.nil_append, unquoteToBytes_cons hpercent, UInt8.ofNat_toNat]
  · rw [List.cons_append, List.cons_append, List.cons_append, List.nil_append, unquoteToBytes,
      hexValue_upperHexDigit _ (by omega), hexValue_upperHexDigit _ (by omega)]
    have hsum : b.toNat / 16 * 16 + b.toNat % 16 = b.toNat := by omega
    simp only [hsum, UInt8.ofNat_toNat]

/-- The bytes come back. -/
theorem unquoteToBytes_plusToSpace (bs : List UInt8) :
    unquoteToBytes (plusToSpace (bs.flatMap quotePlusByte)) = bs := by
  induction bs with
  | nil => rfl
  | cons b bs ih =>
    have hcons : plusToSpace ((b :: bs).flatMap quotePlusByte) =
        plusToSpace (quotePlusByte b) ++ plusToSpace (bs.flatMap quotePlusByte) := by
      rw [List.flatMap_cons, plusToSpace, List.map_append, ← plusToSpace, ← plusToSpace]
    rw [hcons, plusToSpace_quotePlusByte]
    split_ifs with hb
    · rw [List.cons_append, List.nil_append, unquoteToBytes_cons (by decide), ih, hb]
      rfl
    · rw [unquoteToBytes_quoteByte, ih]

/-! ## Decoding with replacements -/

/-- Where nothing is replaced, decoding with replacements is decoding. -/
theorem utf8Replace_of_decode {pending bs : List UInt8} {cs : List Char}
    (h : utf8Decode pending bs = some (cs, [])) : utf8Replace pending bs = cs := by
  induction bs generalizing pending cs with
  | nil =>
    cases h
    rfl
  | cons b bs ih =>
    rw [utf8Decode] at h
    rw [utf8Replace]
    cases hstep : utf8Step pending b with
    | char c =>
      rw [hstep] at h
      obtain ⟨⟨cs', pending'⟩, hrest, heq⟩ := Option.map_eq_some_iff.1 h
      cases heq
      simp only [ih hrest]
    | more pending' =>
      rw [hstep] at h
      exact ih h
    | invalid =>
      rw [hstep] at h
      cases h

/-- A text of ASCII without a percent sign stays. -/
theorem unquotePart_plain {part : PyStr} (hascii : ∀ c ∈ part, c < 0x80) (hpercent : 0x25 ∉ part) :
    unquotePart part = part := by
  have hbytes : unquoteToBytes part = part.map UInt8.ofNat := by
    induction part with
    | nil => rfl
    | cons c part ih =>
      have hc : c ≠ 0x25 := fun h => hpercent (h ▸ List.mem_cons_self)
      rw [unquoteToBytes_cons hc, ih (fun d hd => hascii d (List.mem_cons_of_mem c hd))
        (fun hd => hpercent (List.mem_cons_of_mem c hd)), List.map_cons]
  have hdecode : utf8Decode [] (part.map UInt8.ofNat) = some (part.map Char.ofNat, []) := by
    clear hbytes hpercent
    induction part with
    | nil => rfl
    | cons c part ih =>
      have hc : c < 0x80 := hascii c List.mem_cons_self
      have hbyte : (UInt8.ofNat c).toNat = c :=
        UInt8.toNat_ofNat_of_lt' (show c < 256 by omega)
      rw [List.map_cons, utf8Decode, utf8Step, if_pos (by omega), hbyte]
      simp only [ih fun d hd => hascii d (List.mem_cons_of_mem c hd), Option.map_some,
        List.map_cons]
  have hcodes : ∀ c ∈ part, (Char.toNat ∘ Char.ofNat) c = id c := by
    intro c hc
    have hlt := hascii c hc
    exact toNat_charOfNat (by omega)
  rw [unquotePart, if_pos (by simpa using hascii), hbytes, utf8Replace_of_decode hdecode,
    List.map_map, List.map_congr_left hcodes, List.map_id]

theorem plusToSpace_ascii {text : PyStr} (hascii : ∀ c ∈ text, c < 0x80) :
    ∀ c ∈ plusToSpace text, c < 0x80 := by
  intro c hc
  obtain ⟨d, hd, rfl⟩ := List.mem_map.1 hc
  have hlt := hascii d hd
  split_ifs <;> omega

/-- A text of ASCII is decoded in one piece. -/
theorem unquotePlus_ascii {text : PyStr} (hascii : ∀ c ∈ text, c < 0x80) :
    unquotePlus text = unquotePart (plusToSpace text) := by
  have hspaced := plusToSpace_ascii hascii
  rw [unquotePlus, ← plusToSpace]
  by_cases hpercent : 0x25 ∈ plusToSpace text
  · have hne : plusToSpace text ≠ [] := List.ne_nil_of_mem hpercent
    have hchain : (plusToSpace text).IsChain
        fun a b => decide (a < 0x80) == decide (b < 0x80) := by
      refine List.Pairwise.isChain (List.pairwise_of_forall_mem_list fun a ha b hb => ?_)
      simp [hspaced a ha, hspaced b hb]
    rw [if_neg (not_not.2 hpercent), List.splitBy_of_isChain hne hchain, List.flatMap_singleton]
  · rw [if_pos hpercent, unquotePart_plain hspaced hpercent]

theorem ascii_quotePlus {text out : PyStr} (h : quotePlus text = some out) : ∀ c ∈ out, c < 0x80 := by
  obtain ⟨bs, -, rfl⟩ := quotePlus_eq_some.1 h
  intro c hc
  obtain ⟨b, -, hb⟩ := List.mem_flatMap.1 hc
  exact (mem_quotePlusByte hb).1

/-- **`unquote_plus` gives back what `quote_plus` wrote.** -/
theorem unquotePlus_quotePlus {text out : PyStr} (htext : IsText text) (h : quotePlus text = some out) :
    unquotePlus out = text := by
  have hascii := ascii_quotePlus h
  obtain ⟨bs, hbs, rfl⟩ := quotePlus_eq_some.1 h
  obtain ⟨cs, rfl, rfl⟩ := encodeUtf8_eq htext hbs
  have hspaced : (plusToSpace ((utf8Encode cs).flatMap quotePlusByte)).all (· < 0x80) = true := by
    simpa using plusToSpace_ascii hascii
  rw [unquotePlus_ascii hascii, unquotePart, if_pos hspaced, unquoteToBytes_plusToSpace,
    utf8Replace_of_decode (utf8Decode_encode cs)]

/-! ## All pairs -/

theorem notMem_quotePlus {text out : PyStr} (h : quotePlus text = some out) {c : ℕ}
    (hc : c = 0x26 ∨ c = 0x3d ∨ c ≤ 0x20 ∨ c = 0x3f ∨ c = 0x23) : c ∉ out := by
  obtain ⟨bs, -, rfl⟩ := quotePlus_eq_some.1 h
  intro hmem
  obtain ⟨b, -, hb⟩ := List.mem_flatMap.1 hmem
  obtain ⟨-, h20, h26, h3d, h3f, h23⟩ := mem_quotePlusByte hb
  omega

theorem quotePlus_eq_nil {text : PyStr} (htext : IsText text) :
    quotePlus text = some [] ↔ text = [] := by
  constructor
  · intro h
    rw [← unquotePlus_quotePlus htext h]
    decide
  · rintro rfl
    rfl

/-- A pair as `urlencode` writes it. -/
def encodePair (p : PyStr × PyStr) : Option PyStr := do
  let key ← quotePlus p.1
  let value ← quotePlus p.2
  return key ++ str "=" ++ value

theorem urlencode_eq (params : List (PyStr × PyStr)) :
    urlencode params = (params.mapM encodePair).map (join (str "&")) := by
  rw [urlencode, Option.map_eq_bind]
  rfl

theorem encodePair_eq_some {p : PyStr × PyStr} {pair : PyStr} :
    encodePair p = some pair ↔ ∃ key value, quotePlus p.1 = some key ∧ quotePlus p.2 = some value ∧
      pair = key ++ 0x3d :: value := by
  constructor
  · intro h
    obtain ⟨key, hkey, h⟩ := Option.bind_eq_some_iff.1 h
    obtain ⟨value, hvalue, h⟩ := Option.bind_eq_some_iff.1 h
    cases h
    exact ⟨key, value, hkey, hvalue, List.append_assoc _ _ _⟩
  · rintro ⟨key, value, hkey, hvalue, rfl⟩
    simp [encodePair, hkey, hvalue, str]

theorem partitionAt_append {c : ℕ} {front behind : PyStr} (h : c ∉ front) :
    partitionAt c (front ++ c :: behind) = (front, some behind) := by
  have hfront : ∀ d ∈ front, decide (d ≠ c) = true := by
    intro d hd
    have hne : d ≠ c := fun heq => h (heq ▸ hd)
    simpa using hne
  rw [partitionAt, List.dropWhile_append_of_pos hfront, List.takeWhile_append_of_pos hfront]
  simp

theorem partitionAt_absent {c : ℕ} {text : PyStr} (h : c ∉ text) : partitionAt c text = (text, none) := by
  have hne : ∀ d ∈ text, decide (d ≠ c) = true := by
    intro d hd
    have hd : d ≠ c := fun heq => h (heq ▸ hd)
    simpa using hd
  rw [partitionAt, List.dropWhile_eq_nil_iff.2 hne]

/-- One pair of `parse_qsl`, if it has a value. -/
def readPair (nameValue : PyStr) : Option (PyStr × PyStr) :=
  match partitionAt 0x3d nameValue with
  | (name, some (c :: value)) => some (unquotePlus name, unquotePlus (c :: value))
  | _ => none

theorem readPair_encodePair {p : PyStr × PyStr} {pair : PyStr} (hname : IsText p.1)
    (hvalue : IsText p.2) (h : encodePair p = some pair) :
    readPair pair = if p.2 = [] then none else some p := by
  obtain ⟨key, value, hkey, hval, rfl⟩ := encodePair_eq_some.1 h
  rw [readPair, partitionAt_append (notMem_quotePlus hkey (by simp))]
  cases value with
  | nil => rw [if_pos ((quotePlus_eq_nil hvalue).1 hval)]
  | cons c value =>
    have hne : p.2 ≠ [] := by
      intro hnil
      rw [(quotePlus_eq_nil hvalue).2 hnil] at hval
      cases hval
    rw [if_neg hne]
    simp only [unquotePlus_quotePlus hname hkey, unquotePlus_quotePlus hvalue hval]

/-- The pairs that a query keeps are those with a value. -/
def kept (params : List (PyStr × PyStr)) : List (PyStr × PyStr) := params.filter (·.2 ≠ [])

theorem filterMap_readPair {params : List (PyStr × PyStr)} {pairs : List PyStr}
    (htexts : ∀ p ∈ params, IsText p.1 ∧ IsText p.2) (h : params.mapM encodePair = some pairs) :
    pairs.filterMap readPair = kept params := by
  induction params generalizing pairs with
  | nil =>
    cases h
    rfl
  | cons p params ih =>
    rw [List.mapM_cons] at h
    obtain ⟨pair, hpair, h⟩ := Option.bind_eq_some_iff.1 h
    obtain ⟨rest, hrest, h⟩ := Option.bind_eq_some_iff.1 h
    cases h
    obtain ⟨hname, hvalue⟩ := htexts p List.mem_cons_self
    rw [List.filterMap_cons, readPair_encodePair hname hvalue hpair,
      ih (fun q hq => htexts q (List.mem_cons_of_mem p hq)) hrest]
    by_cases hnil : p.2 = [] <;> simp [kept, hnil]

theorem notMem_encodePair {p : PyStr × PyStr} {pair : PyStr} (h : encodePair p = some pair) {c : ℕ}
    (hc : c = 0x26 ∨ c ≤ 0x20 ∨ c = 0x3f ∨ c = 0x23) : c ∉ pair := by
  obtain ⟨key, value, hkey, hval, rfl⟩ := encodePair_eq_some.1 h
  intro hmem
  rcases List.mem_append.1 hmem with hmem | hmem
  · exact notMem_quotePlus hkey (by omega) hmem
  · rcases List.mem_cons.1 hmem with rfl | hmem
    · omega
    · exact notMem_quotePlus hval (by omega) hmem

theorem mapM_encodePair {params : List (PyStr × PyStr)} {pairs : List PyStr}
    (h : params.mapM encodePair = some pairs) :
    (pairs = [] ↔ params = []) ∧ ∀ pair ∈ pairs, ∃ p, encodePair p = some pair := by
  induction params generalizing pairs with
  | nil =>
    cases h
    simp
  | cons p params ih =>
    rw [List.mapM_cons] at h
    obtain ⟨pair, hpair, h⟩ := Option.bind_eq_some_iff.1 h
    obtain ⟨rest, hrest, h⟩ := Option.bind_eq_some_iff.1 h
    cases h
    refine ⟨by simp, fun other hother => ?_⟩
    rcases List.mem_cons.1 hother with rfl | hother
    · exact ⟨p, hpair⟩
    · exact (ih hrest).2 other hother

/-- **`parse_qsl` gives back the pairs that `urlencode` wrote**, but for those without a value. -/
theorem parseQsl_urlencode {params : List (PyStr × PyStr)} {qs : PyStr}
    (htexts : ∀ p ∈ params, IsText p.1 ∧ IsText p.2) (h : urlencode params = some qs) :
    parseQsl qs = kept params := by
  rw [urlencode_eq] at h
  obtain ⟨pairs, hpairs, rfl⟩ := Option.map_eq_some_iff.1 h
  obtain ⟨hnil, hmem⟩ := mapM_encodePair hpairs
  cases hcases : pairs with
  | nil =>
    rw [hnil.1 hcases]
    rfl
  | cons pair rest =>
    have hamp : ∀ pair ∈ pairs, 0x26 ∉ pair := fun pair hpair => by
      obtain ⟨p, hp⟩ := hmem pair hpair
      exact notMem_encodePair hp (.inl rfl)
    have hsplit : (join (str "&") pairs).splitOn 0x26 = pairs :=
      List.splitOn_intercalate 0x26 hamp (by simp [hcases])
    have hne : join (str "&") pairs ≠ [] := by
      intro hjoin
      rw [hjoin] at hsplit
      obtain ⟨p, hp⟩ := hmem [] (by rw [← hsplit]; simp)
      obtain ⟨key, value, -, -, hpair⟩ := encodePair_eq_some.1 hp
      simp at hpair
    rw [← hcases, parseQsl, if_neg hne, hsplit]
    exact filterMap_readPair htexts hpairs

/-- A query has neither a blank nor a mark that would end it. -/
theorem notMem_urlencode {params : List (PyStr × PyStr)} {qs : PyStr} (h : urlencode params = some qs)
    {c : ℕ} (hc : c ≤ 0x20 ∨ c = 0x3f ∨ c = 0x23) : c ∉ qs := by
  rw [urlencode_eq] at h
  obtain ⟨pairs, hpairs, rfl⟩ := Option.map_eq_some_iff.1 h
  intro hmem
  rcases mem_join hmem with rfl | ⟨pair, hpair, hmem⟩
  · exact absurd hc (by decide)
  · obtain ⟨p, hp⟩ := (mapM_encodePair hpairs).2 pair hpair
    exact notMem_encodePair hp (by omega) hmem

theorem ascii_urlencode {params : List (PyStr × PyStr)} {qs : PyStr} (h : urlencode params = some qs) :
    ∀ c ∈ qs, c < 0x80 := by
  rw [urlencode_eq] at h
  obtain ⟨pairs, hpairs, rfl⟩ := Option.map_eq_some_iff.1 h
  intro c hc
  rcases mem_join hc with rfl | ⟨pair, hpair, hmem⟩
  · decide
  · obtain ⟨p, hp⟩ := (mapM_encodePair hpairs).2 pair hpair
    obtain ⟨key, value, hkey, hval, rfl⟩ := encodePair_eq_some.1 hp
    rcases List.mem_append.1 hmem with hmem | hmem
    · exact ascii_quotePlus hkey c hmem
    · rcases List.mem_cons.1 hmem with rfl | hmem
      · decide
      · exact ascii_quotePlus hval c hmem

/-! ## What is read of them -/

/-- The first value of a name in a query or a form. -/
def fieldOf (pairs : List (PyStr × PyStr)) (key : String) : Option PyStr :=
  (valuesOf pairs (str key)).head?

theorem fieldOf_kept_cons (name key : String) (value : PyStr) (rest : List (PyStr × PyStr)) :
    fieldOf (kept ((str name, value) :: rest)) key =
      if name = key ∧ value ≠ [] then some value else fieldOf (kept rest) key := by
  by_cases hvalue : value = []
  · simp [kept, hvalue]
  · by_cases hname : name = key <;> simp [kept, fieldOf, valuesOf, hvalue, hname, str_inj]

@[simp] theorem fieldOf_kept_nil (key : String) : fieldOf (kept []) key = none := rfl

/-- What the query of a URL asks for. -/
def askedOf (url : PyStr) : List (PyStr × PyStr) := parseQsl ((partitionAt 0x3f url).2.getD [])

theorem askedOf_append {front query : PyStr} {params : List (PyStr × PyStr)} (hfront : 0x3f ∉ front)
    (htexts : ∀ p ∈ params, IsText p.1 ∧ IsText p.2) (hquery : urlencode params = some query) :
    askedOf (front ++ (str "?" ++ query)) = kept params := by
  rw [askedOf, show str "?" ++ query = 0x3f :: query from rfl, partitionAt_append hfront,
    Option.getD_some]
  exact parseQsl_urlencode htexts hquery

/-! ## Request targets -/

/-- A text that has an encoding. -/
def Encodable (text : PyStr) : Prop := IsText text ∧ (encodeUtf8 text).isSome

instance (text : PyStr) : Decidable (Encodable text) :=
  inferInstanceAs (Decidable (IsText text ∧ (encodeUtf8 text).isSome))

theorem encodable_of_scalars {text : PyStr} (h : ∀ c ∈ text, c < 0xd800 ∨ 0xdfff < c ∧ c ≤ 0x10ffff) :
    Encodable text := by
  refine ⟨fun c hc => ?_, ?_⟩
  · have hc := h c hc
    omega
  · induction text with
    | nil => rfl
    | cons c text ih =>
      have hc := h c List.mem_cons_self
      have hrest := ih fun d hd => h d (List.mem_cons_of_mem c hd)
      rw [encodeUtf8, Option.isSome_map] at hrest ⊢
      obtain ⟨chunks, hchunks⟩ := Option.isSome_iff_exists.1 hrest
      rw [List.mapM_cons, hchunks, if_neg (by omega)]
      rfl

/-- A literal has an encoding. -/
theorem encodable_str (s : String) : Encodable (str s) := by
  refine encodable_of_scalars fun c hc => ?_
  obtain ⟨char, -, rfl⟩ := List.mem_map.1 hc
  have hvalid : char.val.toNat < 0xd800 ∨ (0xdfff < char.val.toNat ∧ char.val.toNat < 0x110000) :=
    char.valid
  change char.val.toNat < 0xd800 ∨ 0xdfff < char.val.toNat ∧ char.val.toNat ≤ 0x10ffff
  omega

theorem Encodable.quotePlus {text : PyStr} (h : Encodable text) : ∃ out, quotePlus text = some out := by
  obtain ⟨bs, hbs⟩ := Option.isSome_iff_exists.1 h.2
  exact ⟨_, quotePlus_eq_some.2 ⟨bs, hbs, rfl⟩⟩

/-- **Pairs of such texts are written.** -/
theorem urlencode_of_encodable {params : List (PyStr × PyStr)}
    (h : ∀ p ∈ params, Encodable p.1 ∧ Encodable p.2) : ∃ qs, urlencode params = some qs := by
  have hpairs : ∃ pairs, params.mapM encodePair = some pairs := by
    induction params with
    | nil => exact ⟨[], rfl⟩
    | cons p params ih =>
      obtain ⟨rest, hrest⟩ := ih fun q hq => h q (List.mem_cons_of_mem p hq)
      obtain ⟨key, hkey⟩ := (h p List.mem_cons_self).1.quotePlus
      obtain ⟨value, hvalue⟩ := (h p List.mem_cons_self).2.quotePlus
      refine ⟨(key ++ 0x3d :: value) :: rest, ?_⟩
      rw [List.mapM_cons, encodePair_eq_some.2 ⟨key, value, hkey, hvalue, rfl⟩, hrest]
      rfl
  obtain ⟨pairs, hpairs⟩ := hpairs
  exact ⟨_, by rw [urlencode_eq, hpairs, Option.map_some]⟩

end TradeStation.Python
