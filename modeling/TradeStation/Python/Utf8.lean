import TradeStation.Python.Text

/-!
# UTF-8

The decoders of `codecs` for UTF-8, as an automaton that takes one byte at a time. `utf8Step`
says what a byte does after the bytes of an unfinished character: it completes the character, it
extends it, or no character starts like that.

* `utf8Decode` is the incremental decoder: it keeps the bytes of an unfinished character, and
  fails on bytes that no text starts with. `utf8Decode_append` says that feeding it in pieces is
  feeding it at once, and `utf8Decode_encode` that it undoes the encoding.
* `utf8Replace` is `bytes.decode("utf-8", errors="replace")`.
-/

namespace TradeStation.Python

/-- What a byte does after the bytes of an unfinished character. -/
inductive Utf8Step
  | char (c : Char)
  | more (pending : List UInt8)
  | invalid

/-- The second bytes that may follow the first byte `b₀` of a longer character: continuation
bytes, less the overlong forms, the surrogates and what lies beyond U+10FFFF. -/
def utf8Second (b₀ b : ℕ) : Bool :=
  0x80 ≤ b && b ≤ 0xbf && (b₀ != 0xe0 || 0xa0 ≤ b) && (b₀ != 0xed || b ≤ 0x9f) &&
    (b₀ != 0xf0 || 0x90 ≤ b) && (b₀ != 0xf4 || b ≤ 0x8f)

/-- One byte of the decoder. -/
def utf8Step (pending : List UInt8) (b : UInt8) : Utf8Step :=
  match pending with
  | [] =>
    if b.toNat < 0x80 then .char (Char.ofNat b.toNat)
    else if 0xc2 ≤ b.toNat && b.toNat ≤ 0xf4 then .more [b]
    else .invalid
  | [b₀] =>
    if utf8Second b₀.toNat b.toNat then
      if b₀.toNat < 0xe0 then .char (Char.ofNat (b₀.toNat % 32 * 64 + b.toNat % 64))
      else .more [b₀, b]
    else .invalid
  | [b₀, b₁] =>
    if 0x80 ≤ b.toNat && b.toNat ≤ 0xbf then
      if b₀.toNat < 0xf0 then
        .char (Char.ofNat (b₀.toNat % 16 * 4096 + b₁.toNat % 64 * 64 + b.toNat % 64))
      else .more [b₀, b₁, b]
    else .invalid
  | [b₀, b₁, b₂] =>
    if 0x80 ≤ b.toNat && b.toNat ≤ 0xbf then
      .char (Char.ofNat (b₀.toNat % 8 * 262144 + b₁.toNat % 64 * 4096 + b₂.toNat % 64 * 64 +
        b.toNat % 64))
    else .invalid
  | _ => .invalid

/-- The incremental decoder: the characters completed by some bytes, and the bytes of the
character they leave unfinished. -/
def utf8Decode : List UInt8 → List UInt8 → Option (List Char × List UInt8)
  | pending, [] => some ([], pending)
  | pending, b :: bs =>
    match utf8Step pending b with
    | .char c => (utf8Decode [] bs).map fun r => (c :: r.1, r.2)
    | .more pending' => utf8Decode pending' bs
    | .invalid => none

/-- The replacement character. -/
def replacement : Char := Char.ofNat 0xfffd

/-- `decode("utf-8", errors="replace")`: each maximal start of a character that is not completed,
and each byte that starts none, becomes one replacement character. -/
def utf8Replace : List UInt8 → List UInt8 → List Char
  | [], [] => []
  | _ :: _, [] => [replacement]
  | pending, b :: bs =>
    match utf8Step pending b with
    | .char c => c :: utf8Replace [] bs
    | .more pending' => utf8Replace pending' bs
    | .invalid =>
      if pending = [] then replacement :: utf8Replace [] bs
      else match utf8Step [] b with
        | .char c => replacement :: c :: utf8Replace [] bs
        | .more pending' => replacement :: utf8Replace pending' bs
        | .invalid => replacement :: replacement :: utf8Replace [] bs

/-- `str.encode("utf-8")` of a text. -/
def utf8Encode (cs : List Char) : List UInt8 := cs.flatMap String.utf8EncodeChar

@[simp] theorem utf8Encode_nil : utf8Encode [] = [] := rfl

theorem utf8Encode_cons (c : Char) (cs : List Char) :
    utf8Encode (c :: cs) = String.utf8EncodeChar c ++ utf8Encode cs := rfl

theorem utf8Encode_append (cs ds : List Char) :
    utf8Encode (cs ++ ds) = utf8Encode cs ++ utf8Encode ds := List.flatMap_append

theorem utf8Encode_eq_nil_iff {cs : List Char} : utf8Encode cs = [] ↔ cs = [] := by
  cases cs with
  | nil => simp
  | cons c cs =>
    have h := c.utf8Size_pos
    rw [← String.length_utf8EncodeChar, List.length_pos_iff] at h
    simp [utf8Encode_cons, h]

/-- **Feeding in pieces is feeding at once.** -/
theorem utf8Decode_append (pending as bs : List UInt8) :
    utf8Decode pending (as ++ bs) =
      (utf8Decode pending as).bind fun r =>
        (utf8Decode r.2 bs).map fun r' => (r.1 ++ r'.1, r'.2) := by
  induction as generalizing pending with
  | nil => simp [utf8Decode]
  | cons a as ih =>
    simp only [List.cons_append, utf8Decode]
    cases utf8Step pending a with
    | char c =>
      simp only [ih, Option.map_bind, Option.bind_map]
      congr 1
      funext r
      simp [Function.comp_def]
    | more pending' => exact ih pending'
    | invalid => rfl

theorem utf8Step_more_ne_nil {pending pending' : List UInt8} {b : UInt8}
    (h : utf8Step pending b = .more pending') : pending' ≠ [] := by
  rintro rfl
  unfold utf8Step at h
  split at h <;> (repeat' split at h) <;> simp at h

/-- Bytes that end between two characters complete at least one. -/
theorem utf8Decode_ne_nil {pending bs : List UInt8} {cs : List Char}
    (h : utf8Decode pending bs = some (cs, [])) (hb : bs ≠ []) : cs ≠ [] := by
  induction bs generalizing pending cs with
  | nil => exact absurd rfl hb
  | cons b bs ih =>
    rw [utf8Decode] at h
    cases hs : utf8Step pending b with
    | char c =>
      simp only [hs, Option.map_eq_some_iff] at h
      obtain ⟨r, -, h⟩ := h
      simp only [Prod.mk.injEq] at h
      rw [← h.1]
      exact List.cons_ne_nil _ _
    | more pending' =>
      simp only [hs] at h
      refine ih h ?_
      rintro rfl
      simp only [utf8Decode, Option.some.injEq, Prod.mk.injEq] at h
      exact utf8Step_more_ne_nil hs h.2
    | invalid => simp [hs] at h

/-! ## The decoder undoes the encoding -/

private theorem utf8Decode_one {b : UInt8} (h : b.toNat < 0x80) (bs : List UInt8) :
    utf8Decode [] (b :: bs) =
      (utf8Decode [] bs).map fun r => (Char.ofNat b.toNat :: r.1, r.2) := by
  simp only [utf8Decode, utf8Step]
  rw [if_pos h]

private theorem utf8Decode_two {b₀ b₁ : UInt8} (h₀ : 0xc2 ≤ b₀.toNat ∧ b₀.toNat < 0xe0)
    (h₁ : utf8Second b₀.toNat b₁.toNat) (bs : List UInt8) :
    utf8Decode [] (b₀ :: b₁ :: bs) =
      (utf8Decode [] bs).map fun r =>
        (Char.ofNat (b₀.toNat % 32 * 64 + b₁.toNat % 64) :: r.1, r.2) := by
  simp only [utf8Decode, utf8Step]
  rw [if_neg (by omega), if_pos (by simp; omega)]
  simp only
  rw [if_pos h₁, if_pos h₀.2]

private theorem utf8Decode_three {b₀ b₁ b₂ : UInt8} (h₀ : 0xe0 ≤ b₀.toNat ∧ b₀.toNat < 0xf0)
    (h₁ : utf8Second b₀.toNat b₁.toNat) (h₂ : 0x80 ≤ b₂.toNat ∧ b₂.toNat ≤ 0xbf)
    (bs : List UInt8) :
    utf8Decode [] (b₀ :: b₁ :: b₂ :: bs) =
      (utf8Decode [] bs).map fun r =>
        (Char.ofNat (b₀.toNat % 16 * 4096 + b₁.toNat % 64 * 64 + b₂.toNat % 64) :: r.1, r.2) := by
  simp only [utf8Decode, utf8Step]
  rw [if_neg (by omega), if_pos (by simp; omega)]
  simp only
  rw [if_pos h₁, if_neg (by omega)]
  simp only
  rw [if_pos (by simpa using h₂), if_pos h₀.2]

private theorem utf8Decode_four {b₀ b₁ b₂ b₃ : UInt8} (h₀ : 0xf0 ≤ b₀.toNat ∧ b₀.toNat ≤ 0xf4)
    (h₁ : utf8Second b₀.toNat b₁.toNat) (h₂ : 0x80 ≤ b₂.toNat ∧ b₂.toNat ≤ 0xbf)
    (h₃ : 0x80 ≤ b₃.toNat ∧ b₃.toNat ≤ 0xbf) (bs : List UInt8) :
    utf8Decode [] (b₀ :: b₁ :: b₂ :: b₃ :: bs) =
      (utf8Decode [] bs).map fun r =>
        (Char.ofNat (b₀.toNat % 8 * 262144 + b₁.toNat % 64 * 4096 + b₂.toNat % 64 * 64 +
          b₃.toNat % 64) :: r.1, r.2) := by
  simp only [utf8Decode, utf8Step]
  rw [if_neg (by omega), if_pos (by simp; omega)]
  simp only
  rw [if_pos h₁, if_neg (by omega)]
  simp only
  rw [if_pos (by simpa using h₂), if_neg (by omega)]
  simp only
  rw [if_pos (by simpa using h₃)]

theorem utf8Decode_encodeChar (c : Char) (bs : List UInt8) :
    utf8Decode [] (String.utf8EncodeChar c ++ bs) =
      (utf8Decode [] bs).map fun r => (c :: r.1, r.2) := by
  have hv : c.val.toNat < 0xd800 ∨ (0xdfff < c.val.toNat ∧ c.val.toNat < 0x110000) := c.valid
  have hc : Char.ofNat c.val.toNat = c := Char.ofNat_toNat c
  have byte : ∀ {n : ℕ}, n < 256 → (UInt8.ofNat n).toNat = n := fun h => UInt8.toNat_ofNat_of_lt' h
  unfold String.utf8EncodeChar
  generalize c.val.toNat = v at hv hc
  have hl₁ := byte (n := v % 64 + 128) (by omega)
  have hl₂ := byte (n := v / 64 % 64 + 128) (by omega)
  have hl₃ := byte (n := v / 4096 % 64 + 128) (by omega)
  -- one case for each length of an encoding
  simp only
  split_ifs with h₁ h₂ h₃
  · have hl := byte (n := v) (by omega)
    rw [List.cons_append, List.nil_append, utf8Decode_one (by omega), hl, hc]
  · have hl := byte (n := v / 64 % 32 + 192) (by omega)
    have hsum : (v / 64 % 32 + 192) % 32 * 64 + (v % 64 + 128) % 64 = v := by omega
    rw [List.cons_append, List.cons_append, List.nil_append,
      utf8Decode_two (by omega) (by simp [utf8Second]; omega), hl, hl₁, hsum, hc]
  · have hl := byte (n := v / 4096 % 16 + 224) (by omega)
    have hsum : (v / 4096 % 16 + 224) % 16 * 4096 + (v / 64 % 64 + 128) % 64 * 64 +
        (v % 64 + 128) % 64 = v := by omega
    rw [List.cons_append, List.cons_append, List.cons_append, List.nil_append,
      utf8Decode_three (by omega) (by simp [utf8Second]; omega) (by omega), hl, hl₁, hl₂, hsum,
      hc]
  · have hl := byte (n := v / 262144 % 8 + 240) (by omega)
    have hsum : (v / 262144 % 8 + 240) % 8 * 262144 + (v / 4096 % 64 + 128) % 64 * 4096 +
        (v / 64 % 64 + 128) % 64 * 64 + (v % 64 + 128) % 64 = v := by omega
    rw [List.cons_append, List.cons_append, List.cons_append, List.cons_append, List.nil_append,
      utf8Decode_four (by omega) (by simp [utf8Second]; omega) (by omega) (by omega), hl, hl₁,
      hl₂, hl₃, hsum, hc]

/-- **The incremental decoder undoes the encoding**, and leaves no character unfinished. -/
theorem utf8Decode_encode (cs : List Char) : utf8Decode [] (utf8Encode cs) = some (cs, []) := by
  induction cs with
  | nil => rfl
  | cons c cs ih => rw [utf8Encode_cons, utf8Decode_encodeChar, ih, Option.map_some]

/-! ## The encoding undoes the decoder -/

/-- The first bytes of a character that is not finished, or none. -/
inductive Utf8Unfinished : List UInt8 → Prop
  | none : Utf8Unfinished []
  | one {b₀} (h₀ : 0xc2 ≤ b₀.toNat ∧ b₀.toNat ≤ 0xf4) : Utf8Unfinished [b₀]
  | two {b₀ b₁} (h₀ : 0xe0 ≤ b₀.toNat ∧ b₀.toNat ≤ 0xf4)
    (h₁ : utf8Second b₀.toNat b₁.toNat = true) : Utf8Unfinished [b₀, b₁]
  | three {b₀ b₁ b₂} (h₀ : 0xf0 ≤ b₀.toNat ∧ b₀.toNat ≤ 0xf4)
    (h₁ : utf8Second b₀.toNat b₁.toNat = true) (h₂ : 0x80 ≤ b₂.toNat ∧ b₂.toNat ≤ 0xbf) :
    Utf8Unfinished [b₀, b₁, b₂]

theorem Utf8Unfinished.length_le {pending : List UInt8} (h : Utf8Unfinished pending) :
    pending.length ≤ 3 := by
  cases h <;> simp

/-- A byte that does not finish a character goes behind those before it. -/
theorem utf8Step_more {pending pending' : List UInt8} {b : UInt8} (h : Utf8Unfinished pending)
    (hs : utf8Step pending b = .more pending') :
    pending' = pending ++ [b] ∧ Utf8Unfinished pending' := by
  cases h with
  | none =>
    simp only [utf8Step, Bool.and_eq_true, decide_eq_true_eq] at hs
    split_ifs at hs with _ h₀
    cases hs
    exact ⟨rfl, .one h₀⟩
  | one h₀ =>
    simp only [utf8Step] at hs
    split_ifs at hs with h₁ hshort
    cases hs
    exact ⟨rfl, .two ⟨by omega, h₀.2⟩ h₁⟩
  | two h₀ h₁ =>
    simp only [utf8Step, Bool.and_eq_true, decide_eq_true_eq] at hs
    split_ifs at hs with h₂ hshort
    cases hs
    exact ⟨rfl, .three ⟨by omega, h₀.2⟩ h₁ h₂⟩
  | three h₀ h₁ h₂ =>
    simp only [utf8Step] at hs
    split_ifs at hs

/-- The number of the character with a number. -/
theorem toNat_charOfNat {n : ℕ} (h : n < 0xd800 ∨ (0xdfff < n ∧ n < 0x110000)) :
    (Char.ofNat n).toNat = n := by
  rw [Char.ofNat, dif_pos h]
  rfl

/-- The bytes of the character with a number. -/
private theorem utf8EncodeChar_ofNat {n : ℕ} (h : n < 0xd800 ∨ (0xdfff < n ∧ n < 0x110000)) :
    String.utf8EncodeChar (Char.ofNat n) =
      if n ≤ 0x7f then [UInt8.ofNat n]
      else if n ≤ 0x7ff then [UInt8.ofNat (n / 64 % 32 + 192), UInt8.ofNat (n % 64 + 128)]
      else if n ≤ 0xffff then
        [UInt8.ofNat (n / 4096 % 16 + 224), UInt8.ofNat (n / 64 % 64 + 128),
          UInt8.ofNat (n % 64 + 128)]
      else
        [UInt8.ofNat (n / 262144 % 8 + 240), UInt8.ofNat (n / 4096 % 64 + 128),
          UInt8.ofNat (n / 64 % 64 + 128), UInt8.ofNat (n % 64 + 128)] := by
  have hval : (Char.ofNat n).val.toNat = n := toNat_charOfNat h
  unfold String.utf8EncodeChar
  rw [hval]

/-- The byte that finishes a character completes its encoding. -/
theorem utf8Step_char {pending : List UInt8} {b : UInt8} {c : Char} (h : Utf8Unfinished pending)
    (hs : utf8Step pending b = .char c) : String.utf8EncodeChar c = pending ++ [b] := by
  have hbyte : ∀ {n : ℕ} {a : UInt8}, n = a.toNat → UInt8.ofNat n = a := by
    rintro n a rfl
    exact UInt8.ofNat_toNat
  cases h with
  | none =>
    simp only [utf8Step] at hs
    split_ifs at hs with hb
    cases hs
    rw [utf8EncodeChar_ofNat (by omega), if_pos (by omega), hbyte rfl]
    rfl
  | @one b₀ h₀ =>
    simp only [utf8Step] at hs
    split_ifs at hs with h₁ hshort
    cases hs
    simp only [utf8Second, Bool.and_eq_true, Bool.or_eq_true, decide_eq_true_eq, bne_iff_ne] at h₁
    rw [utf8EncodeChar_ofNat (by omega), if_neg (by omega), if_pos (by omega),
      hbyte (a := b₀) (by omega), hbyte (a := b) (by omega)]
    rfl
  | @two b₀ b₁ h₀ h₁ =>
    simp only [utf8Step, Bool.and_eq_true, decide_eq_true_eq] at hs
    split_ifs at hs with h₂ hshort
    cases hs
    simp only [utf8Second, Bool.and_eq_true, Bool.or_eq_true, decide_eq_true_eq, bne_iff_ne] at h₁
    rw [utf8EncodeChar_ofNat (by omega), if_neg (by omega), if_neg (by omega), if_pos (by omega),
      hbyte (a := b₀) (by omega), hbyte (a := b₁) (by omega), hbyte (a := b) (by omega)]
    rfl
  | @three b₀ b₁ b₂ h₀ h₁ h₂ =>
    simp only [utf8Step, Bool.and_eq_true, decide_eq_true_eq] at hs
    split_ifs at hs with h₃
    cases hs
    simp only [utf8Second, Bool.and_eq_true, Bool.or_eq_true, decide_eq_true_eq, bne_iff_ne] at h₁
    rw [utf8EncodeChar_ofNat (by omega), if_neg (by omega), if_neg (by omega), if_neg (by omega),
      hbyte (a := b₀) (by omega), hbyte (a := b₁) (by omega), hbyte (a := b₂) (by omega),
      hbyte (a := b) (by omega)]
    rfl

/-- **What is decoded is what was encoded**: the bytes are those of the characters, and then the first
ones of an unfinished character. -/
theorem utf8Decode_sound {pending bs pending' : List UInt8} {cs : List Char}
    (hpending : Utf8Unfinished pending) (h : utf8Decode pending bs = some (cs, pending')) :
    pending ++ bs = utf8Encode cs ++ pending' ∧ Utf8Unfinished pending' := by
  induction bs generalizing pending cs with
  | nil =>
    cases h
    exact ⟨by simp, hpending⟩
  | cons b bs ih =>
    rw [utf8Decode] at h
    cases hs : utf8Step pending b with
    | char c =>
      simp only [hs, Option.map_eq_some_iff, Prod.mk.injEq] at h
      obtain ⟨⟨cs, _⟩, hrest, rfl, rfl⟩ := h
      obtain ⟨hbytes, hunfinished⟩ := ih .none hrest
      refine ⟨?_, hunfinished⟩
      rw [utf8Encode_cons, utf8Step_char hpending hs, List.append_assoc, List.append_assoc,
        ← hbytes]
      rfl
    | more next =>
      simp only [hs] at h
      obtain ⟨rfl, hnext⟩ := utf8Step_more hpending hs
      obtain ⟨hbytes, hunfinished⟩ := ih hnext h
      exact ⟨by rw [← hbytes, List.append_assoc]; rfl, hunfinished⟩
    | invalid => simp [hs] at h

/-! ## Text inside a character -/

/-- The first byte of a character continues none. -/
theorem utf8Step_lead {pending : List UInt8} (hpending : pending ≠ []) {b : UInt8}
    (h : b.toNat < 0x80 ∨ 0xbf < b.toNat) : utf8Step pending b = .invalid := by
  have hb : ¬ (0x80 ≤ b.toNat ∧ b.toNat ≤ 0xbf) := by omega
  match pending with
  | [] => exact absurd rfl hpending
  | [b₀] =>
    have hsecond : utf8Second b₀.toNat b.toNat = false := by
      simp only [utf8Second, Bool.and_eq_false_iff, decide_eq_false_iff_not]
      omega
    simp [utf8Step, hsecond]
  | [_, _] => simp [utf8Step, hb]
  | [_, _, _] => simp [utf8Step, hb]
  | _ :: _ :: _ :: _ :: _ => rfl

theorem utf8EncodeChar_lead (c : Char) :
    ∃ b bs, String.utf8EncodeChar c = b :: bs ∧ (b.toNat < 0x80 ∨ 0xbf < b.toNat) := by
  have byte : ∀ {n : ℕ}, n < 256 → (UInt8.ofNat n).toNat = n := fun h => UInt8.toNat_ofNat_of_lt' h
  unfold String.utf8EncodeChar
  generalize c.val.toNat = v
  simp only
  split_ifs with h₁ h₂ h₃
  · exact ⟨_, _, rfl, .inl (by rw [byte (n := v) (by omega)]; omega)⟩
  · exact ⟨_, _, rfl, .inr (by rw [byte (n := v / 64 % 32 + 192) (by omega)]; omega)⟩
  · exact ⟨_, _, rfl, .inr (by rw [byte (n := v / 4096 % 16 + 224) (by omega)]; omega)⟩
  · exact ⟨_, _, rfl, .inr (by rw [byte (n := v / 262144 % 8 + 240) (by omega)]; omega)⟩

/-- No text follows an unfinished character. -/
theorem utf8Decode_encode_pending {pending : List UInt8} (hpending : pending ≠ [])
    {cs : List Char} (hcs : cs ≠ []) : utf8Decode pending (utf8Encode cs) = none := by
  obtain ⟨c, cs, rfl⟩ := List.exists_cons_of_ne_nil hcs
  obtain ⟨b, bs, hc, hb⟩ := utf8EncodeChar_lead c
  rw [utf8Encode_cons, hc, List.cons_append, utf8Decode, utf8Step_lead hpending hb]

end TradeStation.Python
