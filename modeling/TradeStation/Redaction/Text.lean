import TradeStation.Foundations.Pattern
import TradeStation.Python.Library
import TradeStation.Redaction

/-!
# Redaction of texts

`redact_text` puts marks in place of what looks like a bearer token, and then in place of what looks
like one of Auth0.

* `quiet_bearer`: no bearer token is left by the first substitution. The mark begins with the word
  `Bearer` itself, which can end a match that begins in front of it only as a token.
* `redactText_clean`: neither pattern begins anywhere in a redacted text, so that redacting it again
  changes nothing.
* `redactText_eq_self_iff`: the texts that redaction leaves as they are.
-/

namespace TradeStation

open Python Foundations Pattern

/-! ## The patterns -/

/-- `[A-Za-z0-9]`. -/
def isAsciiAlnum (c : ℕ) : Bool :=
  (0x30 ≤ c && c ≤ 0x39) || (0x41 ≤ c && c ≤ 0x5a) || (0x61 ≤ c && c ≤ 0x7a)

/-- `[A-Za-z0-9_-]`. -/
def isTokenChar (c : ℕ) : Bool := isAsciiAlnum c || c == 0x5f || c == 0x2d

/-- `[A-Za-z0-9._~+/=-]` whatever the case: four letters beyond ASCII have an ASCII letter for their
other case. -/
def isBearerChar (c : ℕ) : Bool :=
  isAsciiAlnum c || (str "._~+/=-").contains c || [0x130, 0x131, 0x17f, 0x212a].contains c

/-- `\w`. -/
def isWordChar (lib : Library) (c : ℕ) : Bool :=
  if c < 0x80 then isAsciiAlnum c || c == 0x5f else lib.isalnum c

/-- A lower-case ASCII letter, whatever the case. -/
def ignoreCase (c : ℕ) : Piece ℕ := .one fun d => d == c || d + 0x20 == c

/-- `BEARER_PATTERN`. -/
def bearerPattern : Pattern ℕ :=
  (str "bearer").map ignoreCase ++ [.many isSpace 1, .many isBearerChar 1]

/-- `AUTH0_TOKEN_PATTERN`. -/
def auth0TokenPattern (lib : Library) : Pattern ℕ :=
  -- `\b` on both sides
  fenced (isWordChar lib)
    [.many isTokenChar 24, .one (· == 0x2e), .many isTokenChar 8, .one (· == 0x2e),
      .many isTokenChar 8]

/-- `f"Bearer {REDACTION}"`. -/
def bearerMark : PyStr := str "Bearer " ++ redaction

/-- `BEARER_PATTERN.sub(f"Bearer {REDACTION}", text)`. -/
def subBearer (text : PyStr) : PyStr := sub bearerPattern bearerMark 0 none text

/-- `redact_text`. -/
def redactText (lib : Library) (text : PyStr) : PyStr :=
  sub (auth0TokenPattern lib) redaction 0 none (subBearer text)

/-! ## No bearer token is left -/

/-- Blanks, and then a letter of a token. -/
def Spaced (s : PyStr) : Prop :=
  ∃ blanks d rest, s = blanks ++ d :: rest ∧ (∀ c ∈ blanks, isSpace c = true) ∧
    isBearerChar d = true

/-- The word, and then a blank, and then blanks and a letter of a token. -/
def WordSpaced : PyStr → PyStr → Prop
  | [], s => ∃ e s', s = e :: s' ∧ isSpace e = true ∧ Spaced s'
  | l :: word, s => ∃ d s', s = d :: s' ∧ accepts d (ignoreCase l) = true ∧ WordSpaced word s'

theorem wordSpaced_iff {word s : PyStr} {before : Option ℕ} :
    WordSpaced word s ↔ ∃ w rest, s = w ++ rest ∧
      Spells (word.map ignoreCase ++ [.many isSpace 1, .many isBearerChar 1]) before w rest := by
  induction word generalizing s before with
  | nil =>
    constructor
    · rintro ⟨e, _, rfl, he, blanks, d, rest, rfl, hblanks, hd⟩
      refine ⟨e :: blanks ++ [d], rest, by simp, e :: blanks, [d], rfl, ?_, by simp, [d], [], rfl,
        by simpa using hd, by simp, rfl⟩
      exact List.forall_mem_cons.2 ⟨he, hblanks⟩
    · rintro ⟨_, rest, rfl, blanks, _, rfl, hblanks, hone, token, _, rfl, htoken, hsome, rfl⟩
      cases blanks with
      | nil => simp at hone
      | cons e blanks =>
        cases token with
        | nil => simp at hsome
        | cons d token =>
          obtain ⟨he, hblanks⟩ := List.forall_mem_cons.1 hblanks
          obtain ⟨hd, -⟩ := List.forall_mem_cons.1 htoken
          exact ⟨e, _, rfl, he, blanks, d, token ++ [] ++ rest, by simp, hblanks, hd⟩
  | cons l word ih =>
    constructor
    · rintro ⟨d, s, rfl, hd, h⟩
      obtain ⟨w, rest, rfl, hw⟩ : ∃ w rest, s = w ++ rest ∧
          Spells (word.map ignoreCase ++ [.many isSpace 1, .many isBearerChar 1]) (some d) w rest :=
        ih.1 h
      exact ⟨d :: w, rest, rfl, d, w, rfl, hd, hw⟩
    · rintro ⟨_, rest, rfl, d, w, rfl, hd, hw⟩
      exact ⟨d, w ++ rest, rfl, hd, ih.2 ⟨w, rest, rfl, hw⟩⟩

/-- What a redacted text begins with: a letter that was kept, or the mark of a match. -/
theorem subBearer_cons {before : Option ℕ} {s rest : PyStr} {d : ℕ}
    (h : sub bearerPattern bearerMark 0 before s = d :: rest) :
    (∃ s', s = d :: s' ∧ rest = sub bearerPattern bearerMark 0 (some d) s') ∨
      d = 0x42 ∧ ∃ c s', s = c :: s' ∧ accepts c (ignoreCase 0x62) = true := by
  cases s with
  | nil => cases h
  | cons c s =>
    rw [sub] at h
    split at h
    · next n hmatch =>
      obtain ⟨w, rest', hs, -, hw⟩ := matchAt_spells hmatch
      obtain ⟨c', w, rfl, hc, -⟩ := hw
      obtain ⟨rfl, -⟩ := List.cons.inj hs
      exact .inr ⟨(List.cons.inj h).1.symm, c, s, rfl, hc⟩
    · obtain ⟨rfl, hrest⟩ := List.cons.inj h
      exact .inl ⟨s, rfl, hrest.symm⟩

/-- The letter that a match begins with belongs to a token as well. -/
theorem isBearerChar_of_b {c : ℕ} (h : accepts c (ignoreCase 0x62) = true) :
    isBearerChar c = true := by
  have hc : c = 0x62 ∨ c = 0x42 := by
    simp only [accepts, ignoreCase, Bool.or_eq_true, beq_iff_eq] at h
    omega
  rcases hc with rfl | rfl <;> decide

theorem spaced_of_sub {before : Option ℕ} {s : PyStr}
    (h : Spaced (sub bearerPattern bearerMark 0 before s)) : Spaced s := by
  obtain ⟨blanks, d, rest, hs, hblanks, hd⟩ := h
  induction blanks generalizing before s with
  | nil =>
    rcases subBearer_cons hs with ⟨s, rfl, -⟩ | ⟨-, c, s, rfl, hc⟩
    · exact ⟨[], d, s, rfl, by simp, hd⟩
    · exact ⟨[], c, s, rfl, by simp, isBearerChar_of_b hc⟩
  | cons e blanks ih =>
    obtain ⟨he, hblanks⟩ := List.forall_mem_cons.1 hblanks
    rcases subBearer_cons hs with ⟨s, rfl, hrest⟩ | ⟨rfl, -⟩
    · obtain ⟨blanks', d', rest', rfl, hblanks', hd'⟩ := ih hrest.symm hblanks
      exact ⟨e :: blanks', d', rest', rfl, List.forall_mem_cons.2 ⟨he, hblanks'⟩, hd'⟩
    · cases he

/-- The mark has no part in a word without a `b`. -/
theorem wordSpaced_of_sub {word : PyStr}
    (hword : ∀ l ∈ word, accepts 0x42 (ignoreCase l) = false) {before : Option ℕ} {s : PyStr}
    (h : WordSpaced word (sub bearerPattern bearerMark 0 before s)) : WordSpaced word s := by
  induction word generalizing before s with
  | nil =>
    obtain ⟨e, rest, hs, he, hspaced⟩ := h
    rcases subBearer_cons hs with ⟨s, rfl, rfl⟩ | ⟨rfl, -⟩
    · exact ⟨e, s, rfl, he, spaced_of_sub hspaced⟩
    · cases he
  | cons l word ih =>
    obtain ⟨d, rest, hs, hd, hrest⟩ := h
    obtain ⟨hl, htail⟩ := List.forall_mem_cons.1 hword
    rcases subBearer_cons hs with ⟨s, rfl, rfl⟩ | ⟨rfl, -⟩
    · exact ⟨d, s, rfl, hd, ih htail hrest⟩
    · rw [hl] at hd
      cases hd

theorem least_bearerPattern : 0 < least bearerPattern := by decide

/-- **No bearer token is left** by the first substitution. -/
theorem quiet_bearer : ∀ before s, ∀ before',
    Quiet bearerPattern before' (sub bearerPattern bearerMark 0 before s) := by
  refine sub_induction bearerMark least_bearerPattern ?_ ?_ ?_
  · exact fun before before' => trivial
  · intro before c s hmatch hsub ih before'
    rw [hsub]
    refine ⟨?_, ih (some c)⟩
    rw [matchAt_eq_none, ← hsub]
    intro w rest hs hw
    -- the first letter is kept, and the rest of the word is no part of a mark
    have hspaced : WordSpaced (str "bearer") (sub bearerPattern bearerMark 0 before (c :: s)) :=
      wordSpaced_iff.2 ⟨w, rest, hs, hw⟩
    obtain ⟨d, s', hd, hletter, hrest⟩ := hspaced
    rw [hsub] at hd
    obtain ⟨rfl, rfl⟩ := List.cons.inj hd
    have hword : WordSpaced (str "bearer") (c :: s) :=
      ⟨c, s, rfl, hletter, wordSpaced_of_sub (by decide) hrest⟩
    obtain ⟨w, rest, hs, hw⟩ : ∃ w rest, c :: s = w ++ rest ∧ Spells bearerPattern before w rest :=
      wordSpaced_iff.1 hword
    exact matchAt_eq_none.1 hmatch w rest hs hw
  · intro before c w rest hw hsub ih before'
    rw [hsub]
    have hsilent : Silent bearerPattern (str "earer " ++ redaction) :=
      silent_of_first (by decide)
    exact ⟨rfl, quiet_mark hsilent (ih _)⟩

/-! ## Redacted texts -/

/-- Neither pattern begins anywhere in the text. -/
def Clean (lib : Library) (text : PyStr) : Prop :=
  Quiet bearerPattern none text ∧ Quiet (auth0TokenPattern lib) none text

section
variable (lib : Library)

theorem least_auth0TokenPattern : least (auth0TokenPattern lib) = 42 := by
  rw [auth0TokenPattern, least_fenced]
  rfl

theorem auth0TokenPattern_rejects {o : ℕ} (h : isTokenChar o = false) (hdot : o ≠ 0x2e) :
    Rejects (auth0TokenPattern lib) o := by
  refine rejects_fenced ?_
  simp [Rejects, accepts, h, hdot]

/-- **A redacted text is clean.** -/
theorem redactText_clean (text : PyStr) : Clean lib (redactText lib text) := by
  constructor
  · have hsilent : Silent bearerPattern redaction := silent_of_first (by decide)
    exact Quiet.sub_plain (by simp [least_auth0TokenPattern]) (by decide) (by decide) hsilent none
      (subBearer text) none (quiet_bearer none text none)
  · have hsilent : Silent (auth0TokenPattern lib) (str "[REDACTED" ++ [0x5d]) :=
      silent_of_short (by rw [least_auth0TokenPattern]; decide)
        (auth0TokenPattern_rejects lib (by decide) (by decide))
    exact quiet_sub (by decide) (by decide) (by decide) rfl hsilent none (subBearer text) none
      (.inl rfl)

theorem redactText_eq_self {text : PyStr} (h : Clean lib text) : redactText lib text = text := by
  have hbearer : subBearer text = text := sub_eq_self h.1
  rw [redactText, hbearer]
  exact sub_eq_self h.2

/-- Redacting twice is redacting once. -/
theorem redactText_redactText (text : PyStr) :
    redactText lib (redactText lib text) = redactText lib text :=
  redactText_eq_self lib (redactText_clean lib text)

/-- **The texts that stay as they are** are the clean ones: every mark adds a bracket. -/
theorem redactText_eq_self_iff (text : PyStr) : redactText lib text = text ↔ Clean lib text := by
  refine ⟨fun h => ?_, redactText_eq_self lib⟩
  obtain ⟨hbearerLe, hbearerQuiet⟩ := count_sub (o := 0x5b) least_bearerPattern (by decide)
    (show 0x5b ∈ bearerMark by decide) none text
  obtain ⟨hauth0Le, hauth0Quiet⟩ := count_sub (o := 0x5b) (by simp [least_auth0TokenPattern])
    (auth0TokenPattern_rejects lib (by decide) (by decide)) (show 0x5b ∈ redaction by decide) none
    (subBearer text)
  have hcount := congrArg (List.count 0x5b) h
  rw [redactText] at hcount
  have hbearer : Quiet bearerPattern none text := by
    apply hbearerQuiet
    unfold subBearer at hcount hauth0Le
    omega
  have hkept : subBearer text = text := sub_eq_self hbearer
  rw [hkept] at hcount hauth0Quiet
  exact ⟨hbearer, hauth0Quiet hcount⟩

end

end TradeStation
