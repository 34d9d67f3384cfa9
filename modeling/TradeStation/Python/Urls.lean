import TradeStation.Python.Utf8

/-!
# Percent encoding

`urllib.parse.quote(text, safe="")`: the UTF-8 bytes of a text, with all but the unreserved
characters written as `%XX`. A lone surrogate has no bytes, and `quote` raises on it. `urlencode`
writes a query with the same bytes, but for blanks.

`quote_inj` and `quote_reserved` are what a path relies on: different texts are quoted differently,
and a quoted text is one segment of one item.
-/

namespace TradeStation.Python

/-- `text.encode("utf-8")`; `none` where it raises `UnicodeEncodeError`. -/
def encodeUtf8 (text : PyStr) : Option (List UInt8) :=
  (text.mapM fun c =>
    if 0xd800 ≤ c ∧ c ≤ 0xdfff then none else some (String.utf8EncodeChar (Char.ofNat c))).map
      List.flatten

/-- A byte that `quote` leaves as it is. -/
def isUnreserved (b : UInt8) : Bool :=
  (0x30 ≤ b && b ≤ 0x39) || (0x41 ≤ b && b ≤ 0x5a) || (0x61 ≤ b && b ≤ 0x7a) ||
    b == 0x5f || b == 0x2e || b == 0x2d || b == 0x7e

/-- A hexadecimal digit. -/
def upperHexDigit (n : ℕ) : ℕ := if n < 10 then 0x30 + n else 0x41 + (n - 10)

/-- A byte as `quote` writes it. -/
def quoteByte (b : UInt8) : PyStr :=
  if isUnreserved b then [b.toNat] else [0x25, upperHexDigit (b.toNat / 16), upperHexDigit (b.toNat % 16)]

/-- `quote(text, safe="")`; `none` where it raises `UnicodeEncodeError`. -/
def quote (text : PyStr) : Option PyStr := (encodeUtf8 text).map fun bs => bs.flatMap quoteByte

/-- `quote_plus(text, safe="")`; `none` where it raises `UnicodeEncodeError`. -/
def quotePlus (text : PyStr) : Option PyStr :=
  (encodeUtf8 text).map fun bs => bs.flatMap fun b => if b = 0x20 then str "+" else quoteByte b

/-- `urlencode(params)`; `none` where it raises `UnicodeEncodeError`. -/
def urlencode (params : List (PyStr × PyStr)) : Option PyStr := do
  let pairs ← params.mapM fun p => do
    let key ← quotePlus p.1
    let value ← quotePlus p.2
    return key ++ str "=" ++ value
  return join (str "&") pairs

/-! ## Quoting is faithful -/

/-- The elements are code points. -/
def IsText (text : PyStr) : Prop := ∀ c ∈ text, c ≤ 0x10ffff

instance (text : PyStr) : Decidable (IsText text) :=
  inferInstanceAs (Decidable (∀ c ∈ text, c ≤ 0x10ffff))

/-- The bytes of a text are the encoding of its characters. -/
theorem encodeUtf8_eq {text : PyStr} {bs : List UInt8} (htext : IsText text)
    (h : encodeUtf8 text = some bs) :
    ∃ cs : List Char, bs = utf8Encode cs ∧ text = cs.map Char.toNat := by
  induction text generalizing bs with
  | nil =>
    cases h
    exact ⟨[], rfl, rfl⟩
  | cons c text ih =>
    have hvalid : c ≤ 0x10ffff := htext c List.mem_cons_self
    have hrest : IsText text := fun c hc => htext c (List.mem_cons_of_mem _ hc)
    by_cases hsurrogate : 0xd800 ≤ c ∧ c ≤ 0xdfff
    · simp [encodeUtf8, hsurrogate] at h
    · simp only [encodeUtf8, List.mapM_cons, if_neg hsurrogate] at h
      obtain ⟨chunks, hchunks, rfl⟩ := Option.map_eq_some_iff.1 h
      obtain ⟨first, hfirst, hchunks⟩ := Option.bind_eq_some_iff.1 hchunks
      cases hfirst
      obtain ⟨tail, htail, hcons⟩ := Option.bind_eq_some_iff.1 hchunks
      cases hcons
      obtain ⟨cs, hcs, rfl⟩ := ih hrest (by rw [encodeUtf8, htail]; rfl)
      refine ⟨Char.ofNat c :: cs, ?_, ?_⟩
      · rw [utf8Encode_cons, ← hcs]
        rfl
      · rw [List.map_cons, toNat_charOfNat (by omega)]

theorem encodeUtf8_inj {text text' : PyStr} {bs : List UInt8} (htext : IsText text)
    (htext' : IsText text') (h : encodeUtf8 text = some bs) (h' : encodeUtf8 text' = some bs) :
    text = text' := by
  obtain ⟨cs, rfl, rfl⟩ := encodeUtf8_eq htext h
  obtain ⟨cs', hcs, rfl⟩ := encodeUtf8_eq htext' h'
  have hdecode := utf8Decode_encode cs
  rw [hcs, utf8Decode_encode] at hdecode
  cases hdecode
  rfl

theorem upperHexDigit_inj {m n : ℕ} (hm : m < 16) (hn : n < 16)
    (h : upperHexDigit m = upperHexDigit n) : m = n := by
  unfold upperHexDigit at h
  split_ifs at h <;> omega

/-- How a byte is written ends where it ends. -/
theorem quoteByte_append_inj {b b' : UInt8} {rest rest' : PyStr}
    (h : quoteByte b ++ rest = quoteByte b' ++ rest') : b = b' ∧ rest = rest' := by
  have hpercent : ∀ b : UInt8, isUnreserved b = true → b.toNat ≠ 0x25 := by
    intro b hb hn
    have heq : b = 0x25 := UInt8.toNat_inj.1 hn
    subst heq
    exact absurd hb (by decide)
  unfold quoteByte at h
  split_ifs at h with hb hb' hb'
  · obtain ⟨hn, hrest⟩ := List.cons.inj h
    exact ⟨UInt8.toNat_inj.1 hn, hrest⟩
  · exact absurd (List.cons.inj h).1 (hpercent b hb)
  · exact absurd (List.cons.inj h).1.symm (hpercent b' hb')
  · simp only [List.cons_append, List.nil_append, List.cons.injEq, true_and] at h
    obtain ⟨hhigh, hlow, hrest⟩ := h
    have hlt := b.toNat_lt
    have hlt' := b'.toNat_lt
    have hdiv := upperHexDigit_inj (by omega) (by omega) hhigh
    have hmod := upperHexDigit_inj (by omega) (by omega) hlow
    exact ⟨UInt8.toNat_inj.1 (by omega), hrest⟩

theorem flatMap_quoteByte_inj {bs bs' : List UInt8}
    (h : bs.flatMap quoteByte = bs'.flatMap quoteByte) : bs = bs' := by
  have hne : ∀ b, quoteByte b ≠ [] := by
    intro b
    unfold quoteByte
    split_ifs <;> simp
  induction bs generalizing bs' with
  | nil =>
    cases bs' with
    | nil => rfl
    | cons b' bs' => simp [hne] at h
  | cons b bs ih =>
    cases bs' with
    | nil => simp [hne] at h
    | cons b' bs' =>
      obtain ⟨rfl, hrest⟩ := quoteByte_append_inj h
      rw [ih hrest]

/-- **Different texts are quoted differently.** -/
theorem quote_inj {text text' path : PyStr} (htext : IsText text) (htext' : IsText text')
    (h : quote text = some path) (h' : quote text' = some path) : text = text' := by
  obtain ⟨bs, hbs, rfl⟩ := Option.map_eq_some_iff.1 h
  obtain ⟨bs', hbs', heq⟩ := Option.map_eq_some_iff.1 h'
  rw [flatMap_quoteByte_inj heq] at hbs'
  exact encodeUtf8_inj htext htext' hbs hbs'

/-- A quoted text has no characters but the unreserved ones and the percent sign. -/
theorem notMem_quote {text path : PyStr} (h : quote text = some path) {r : UInt8}
    (hr : isUnreserved r = false) (hpercent : r ≠ 0x25) : r.toNat ∉ path := by
  have hdigit : ∀ n < 16, r.toNat ≠ upperHexDigit n := by
    intro n hn heq
    have hunreserved : ∀ m < 16, isUnreserved (UInt8.ofNat (upperHexDigit m)) = true := by decide
    have hn' := hunreserved n hn
    rw [← heq, UInt8.ofNat_toNat, hr] at hn'
    cases hn'
  obtain ⟨bs, -, rfl⟩ := Option.map_eq_some_iff.1 h
  intro hmem
  obtain ⟨b, -, hb⟩ := List.mem_flatMap.1 hmem
  have hlt := b.toNat_lt
  unfold quoteByte at hb
  split_ifs at hb with hunreserved
  · rw [← UInt8.toNat_inj.1 (List.mem_singleton.1 hb), hr] at hunreserved
    cases hunreserved
  · simp only [List.mem_cons, List.not_mem_nil, or_false] at hb
    rcases hb with hb | hb | hb
    · exact hpercent (UInt8.toNat_inj.1 hb)
    · exact hdigit _ (by omega) hb
    · exact hdigit _ (by omega) hb

/-- **A quoted text has no slash, no comma and no question mark.** -/
theorem quote_reserved {text path : PyStr} (h : quote text = some path) :
    ∀ c ∈ path, c ≠ 0x2f ∧ c ≠ 0x2c ∧ c ≠ 0x3f := by
  intro c hc
  refine ⟨?_, ?_, ?_⟩ <;> rintro rfl
  · exact notMem_quote h (r := 0x2f) (by decide) (by decide) hc
  · exact notMem_quote h (r := 0x2c) (by decide) (by decide) hc
  · exact notMem_quote h (r := 0x3f) (by decide) (by decide) hc

/-! ## Percent decoding -/

/-- The value of a hexadecimal digit. -/
def hexValue (c : ℕ) : Option ℕ :=
  if 0x30 ≤ c ∧ c ≤ 0x39 then some (c - 0x30)
  else if 0x41 ≤ c ∧ c ≤ 0x46 then some (c - 0x41 + 10)
  else if 0x61 ≤ c ∧ c ≤ 0x66 then some (c - 0x61 + 10)
  else none

/-- The bytes that a text is the percent encoding of. -/
def unquoteBytes : PyStr → Option (List UInt8)
  | [] => some []
  | 0x25 :: high :: low :: rest => do
    let high ← hexValue high
    let low ← hexValue low
    let bytes ← unquoteBytes rest
    return UInt8.ofNat (high * 16 + low) :: bytes
  | c :: rest =>
    if c = 0x25 ∨ 0x80 ≤ c then none else (unquoteBytes rest).map (UInt8.ofNat c :: ·)

/-- The text that a text is the percent encoding of. -/
def unquote (text : PyStr) : Option PyStr := do
  let (characters, pending) ← utf8Decode [] (← unquoteBytes text)
  if pending = [] then return characters.map Char.toNat else none

theorem hexValue_upperHexDigit : ∀ n < 16, hexValue (upperHexDigit n) = some n := by decide

theorem unquoteBytes_quoteByte (b : UInt8) (rest : PyStr) :
    unquoteBytes (quoteByte b ++ rest) = (unquoteBytes rest).map (b :: ·) := by
  have hlt := b.toNat_lt
  unfold quoteByte
  split_ifs with hb
  · have hascii : b.toNat ≠ 0x25 ∧ b.toNat < 0x80 := by
      simp only [isUnreserved, Bool.or_eq_true, Bool.and_eq_true, decide_eq_true_eq, beq_iff_eq,
        UInt8.le_iff_toNat_le, ← UInt8.toNat_inj, UInt8.reduceToNat] at hb
      omega
    rw [List.cons_append, List.nil_append, unquoteBytes, if_neg (by omega), UInt8.ofNat_toNat]
    intro high low rest' hcons
    exact absurd hcons hascii.1
  · rw [List.cons_append, List.cons_append, List.cons_append, List.nil_append, unquoteBytes,
      hexValue_upperHexDigit _ (by omega), hexValue_upperHexDigit _ (by omega)]
    have hsum : b.toNat / 16 * 16 + b.toNat % 16 = b.toNat := by omega
    simp only [Option.bind_eq_bind, Option.bind_some, hsum, UInt8.ofNat_toNat]
    cases unquoteBytes rest <;> rfl

/-- **Decoding gives a quoted text back.** -/
theorem unquote_quote {text path : PyStr} (htext : IsText text) (h : quote text = some path) :
    unquote path = some text := by
  obtain ⟨bs, hbs, rfl⟩ := Option.map_eq_some_iff.1 h
  have hbytes : unquoteBytes (bs.flatMap quoteByte) = some bs := by
    clear h hbs
    induction bs with
    | nil => rfl
    | cons b bs ih => rw [List.flatMap_cons, unquoteBytes_quoteByte, ih, Option.map_some]
  obtain ⟨cs, rfl, rfl⟩ := encodeUtf8_eq htext hbs
  rw [unquote, hbytes]
  simp [utf8Decode_encode]

/-! ## Lists of texts -/

/-- What is quoted one by one are the quotes of the texts. -/
theorem mapM_quote_some {texts paths : List PyStr} (h : texts.mapM quote = some paths) :
    paths.length = texts.length ∧ ∀ path ∈ paths, ∃ text ∈ texts, quote text = some path := by
  induction texts generalizing paths with
  | nil =>
    cases h
    simp
  | cons text texts ih =>
    rw [List.mapM_cons] at h
    obtain ⟨first, hfirst, h⟩ := Option.bind_eq_some_iff.1 h
    obtain ⟨rest, hrest, h⟩ := Option.bind_eq_some_iff.1 h
    cases h
    obtain ⟨hlength, hmem⟩ := ih hrest
    refine ⟨by simp [hlength], fun path hpath => ?_⟩
    rcases List.mem_cons.1 hpath with rfl | hpath
    · exact ⟨text, List.mem_cons_self, hfirst⟩
    · obtain ⟨other, hother, hquote⟩ := hmem path hpath
      exact ⟨other, List.mem_cons_of_mem _ hother, hquote⟩

theorem mem_join {sep c : ℕ} {parts : List PyStr} (h : c ∈ join [sep] parts) :
    c = sep ∨ ∃ part ∈ parts, c ∈ part := by
  match parts with
  | [] => cases h
  | [part] =>
    have hc : c ∈ part := by simpa [join] using h
    exact .inr ⟨part, List.mem_cons_self, hc⟩
  | part :: part' :: parts =>
    have hsplit : join [sep] (part :: part' :: parts) = part ++ sep :: join [sep] (part' :: parts) := by
      simp [join]
    rw [hsplit] at h
    rcases List.mem_append.1 h with hc | h
    · exact .inr ⟨part, List.mem_cons_self, hc⟩
    rcases List.mem_cons.1 h with rfl | h
    · exact .inl rfl
    rcases mem_join h with hsep | ⟨other, hother, hc⟩
    · exact .inl hsep
    · exact .inr ⟨other, List.mem_cons_of_mem part hother, hc⟩

theorem mapM_unquote {texts paths : List PyStr} (htexts : ∀ text ∈ texts, IsText text)
    (h : texts.mapM quote = some paths) : paths.mapM unquote = some texts := by
  induction texts generalizing paths with
  | nil =>
    cases h
    rfl
  | cons text texts ih =>
    rw [List.mapM_cons] at h
    obtain ⟨first, hfirst, h⟩ := Option.bind_eq_some_iff.1 h
    obtain ⟨rest, hrest, h⟩ := Option.bind_eq_some_iff.1 h
    cases h
    have htexts' : ∀ text ∈ texts, IsText text := fun other hother =>
      htexts other (List.mem_cons_of_mem _ hother)
    rw [List.mapM_cons, unquote_quote (htexts text List.mem_cons_self) hfirst, ih htexts' hrest]
    rfl

/-- **A list that is quoted and joined is read off again.** -/
theorem mapM_unquote_splitOn {texts paths : List PyStr} (htexts : ∀ text ∈ texts, IsText text)
    (hne : texts ≠ []) (h : texts.mapM quote = some paths) :
    ((join (str ",") paths).splitOn 0x2c).mapM unquote = some texts := by
  obtain ⟨hlength, hquoted⟩ := mapM_quote_some h
  have hcomma : ∀ path ∈ paths, 0x2c ∉ path := by
    intro path hpath hmem
    obtain ⟨text, -, hquote⟩ := hquoted path hpath
    exact (quote_reserved hquote _ hmem).2.1 rfl
  have hpaths : paths ≠ [] := by
    rintro rfl
    exact hne (List.length_eq_zero_iff.1 hlength.symm)
  have hsplit : (join (str ",") paths).splitOn 0x2c = paths :=
    List.splitOn_intercalate 0x2c hcomma hpaths
  rw [hsplit]
  exact mapM_unquote htexts h

end TradeStation.Python
