import TradeStation.Stream.Parser

/-!
# The bracket scanner on JSON texts

`looksIncomplete` decides on the buffer alone whether a message that does not decode is cut off
or malformed. Here it is shown to answer rightly on every cut message: `looksIncomplete_prefix`.

The invariant is `Passes b t`: a scan that comes to `t` with nothing escaped leaves `t` in the
state it came in, and at every cut inside `t` the brackets open before `t` are still open. It is
`Kept` by every rule of the grammar, so every text of a value has it.
-/

namespace TradeStation.Stream

open Python Python.Json

/-- The scan of a text from a state. -/
def scanText (scan : Scan) (t : List Char) : Option Scan := t.foldlM scanChar scan

theorem scanText_append (scan : Scan) (t u : List Char) :
    scanText scan (t ++ u) = (scanText scan t).bind fun scan => scanText scan u := by
  simp [scanText, List.foldlM_append]

/-- The scan passes through `t`, inside a string if `b` and outside if not: it leaves `t` as it
came to it, and at every cut inside `t` what was open is still open. -/
structure Passes (b : Bool) (t : List Char) : Prop where
  through : ∀ stack, scanText ⟨stack, b, false⟩ t = some ⟨stack, b, false⟩
  inside : ∀ stack p u, t = p ++ u →
    ∃ opened b' e, scanText ⟨stack, b, false⟩ p = some ⟨opened ++ stack, b', e⟩

namespace Passes

variable {b : Bool} {t u : List Char}

theorem nil : Passes b [] where
  through _ := rfl
  inside stack p u h := by
    obtain ⟨rfl, rfl⟩ := List.append_eq_nil_iff.1 h.symm
    exact ⟨[], b, false, rfl⟩

theorem append (ht : Passes b t) (hu : Passes b u) : Passes b (t ++ u) where
  through stack := by rw [scanText_append, ht.through, Option.bind_some, hu.through]
  inside stack p v h := by
    rcases List.append_eq_append_iff.1 h with ⟨q, rfl, hq⟩ | ⟨q, hq, -⟩
    · rw [scanText_append, ht.through, Option.bind_some]
      exact hu.inside stack q v hq
    · exact ht.inside stack p q hq

/-- A character that the scan reads without a change of state. -/
theorem char {c : Char} (h : ∀ stack, scanChar ⟨stack, b, false⟩ c = some ⟨stack, b, false⟩) :
    Passes b [c] where
  through stack := by simp [scanText, h]
  inside stack p u hp := by
    cases p with
    | nil => exact ⟨[], b, false, rfl⟩
    | cons d p =>
      simp only [List.cons_append, List.cons.injEq, List.nil_eq, List.append_eq_nil_iff] at hp
      obtain ⟨rfl, rfl, rfl⟩ := hp
      exact ⟨[], b, false, by simp [scanText, h]⟩

theorem cons {c : Char} (hc : Passes b [c]) (ht : Passes b t) : Passes b (c :: t) := hc.append ht

/-- A text between an opening and a closing character. -/
theorem enclose {b' : Bool} {o c : Char} (ht : Passes b' t) (opened : List Char)
    (ho : ∀ stack, scanChar ⟨stack, b, false⟩ o = some ⟨opened ++ stack, b', false⟩)
    (hc : ∀ stack, scanChar ⟨opened ++ stack, b', false⟩ c = some ⟨stack, b, false⟩) :
    Passes b (o :: (t ++ [c])) := by
  have hopen : ∀ stack v, scanText ⟨stack, b, false⟩ (o :: v) =
      scanText ⟨opened ++ stack, b', false⟩ v := by
    intro stack v
    simp [scanText, ho]
  have hthrough : ∀ stack, scanText ⟨stack, b, false⟩ (o :: (t ++ [c])) =
      some ⟨stack, b, false⟩ := by
    intro stack
    rw [hopen, scanText_append, ht.through]
    simp [scanText, hc]
  refine ⟨hthrough, fun stack p u h => ?_⟩
  cases p with
  | nil => exact ⟨[], b, false, rfl⟩
  | cons d p =>
    obtain ⟨rfl, htail⟩ := List.cons.inj h
    rcases List.append_eq_append_iff.1 htail with ⟨q, rfl, hq⟩ | ⟨q, hq, -⟩
    · cases q with
      | nil =>
        rw [hopen, List.append_nil, ht.through]
        exact ⟨opened, b', false, rfl⟩
      | cons e q =>
        simp only [List.cons_append, List.cons.injEq, List.nil_eq, List.append_eq_nil_iff] at hq
        obtain ⟨rfl, rfl, rfl⟩ := hq
        exact ⟨[], b, false, hthrough stack⟩
    · obtain ⟨opened', b'', e, hscan⟩ := ht.inside (opened ++ stack) p q hq
      exact ⟨opened' ++ opened, b'', e, by rw [hopen, hscan, List.append_assoc]⟩

end Passes

/-! ## The grammar -/

/-- No quote, no backslash and no bracket. -/
def Neutral (c : Char) : Prop :=
  c ≠ '\\' ∧ c ≠ '"' ∧ c ≠ '{' ∧ c ≠ '[' ∧ c ≠ '}' ∧ c ≠ ']'

instance (c : Char) : Decidable (Neutral c) := by unfold Neutral; infer_instance

theorem scanChar_neutral {c : Char} (h : Neutral c) (stack : List Char) :
    scanChar ⟨stack, false, false⟩ c = some ⟨stack, false, false⟩ := by
  obtain ⟨hb, hq, ho, ho', hc, hc'⟩ := h
  simp [scanChar, hb, hq, ho, ho', hc, hc']

theorem Passes.neutral {t : List Char} (h : ∀ c ∈ t, Neutral c) : Passes false t := by
  induction t with
  | nil => exact .nil
  | cons c t ih =>
    exact .cons (.char (scanChar_neutral (h c List.mem_cons_self)))
      (ih fun d hd => h d (List.mem_cons_of_mem c hd))

theorem isDigit_neutral {c : Char} (h : isDigit c = true) : Neutral c := by
  refine ⟨?_, ?_, ?_, ?_, ?_, ?_⟩ <;>
    (rintro rfl; revert h; decide)

theorem isWs_neutral {c : Char} (h : isWs c = true) : Neutral c := by
  simp only [isWs, Bool.or_eq_true, decide_eq_true_eq] at h
  rcases h with ((rfl | rfl) | rfl) | rfl <;> decide

theorem hexDigit_ne {c : Char} {n : ℕ} (h : hexDigit c = some n) : c ≠ '\\' ∧ c ≠ '"' := by
  constructor <;>
    (rintro rfl; simp [hexDigit] at h)

/-- Inside a string, a character other than a quote and a backslash changes nothing. -/
theorem passes_plain {c : Char} (hb : c ≠ '\\') (hq : c ≠ '"') : Passes true [c] :=
  .char fun stack => by simp [scanChar, hb, hq]

/-- Inside a string, a backslash takes the next character with it. -/
theorem passes_escape (e : Char) : Passes true ['\\', e] where
  through stack := by simp [scanText, scanChar]
  inside stack p u h := by
    match p, h with
    | [], _ => exact ⟨[], true, false, rfl⟩
    | [c], h =>
      obtain ⟨rfl, -⟩ := List.cons.inj h
      exact ⟨[], true, true, by simp [scanText, scanChar]⟩
    | [c, d], h =>
      simp only [List.cons_append, List.cons.injEq] at h
      obtain ⟨rfl, rfl, -⟩ := h
      exact ⟨[], true, false, by simp [scanText, scanChar]⟩
    | _ :: _ :: _ :: _, h => simp at h

theorem passes_character {t : List Char} {n : ℕ} (h : Character t n) : Passes true t := by
  cases h with
  | plain c hc hq hb => exact passes_plain hb hq
  | escape e n he h => exact passes_escape e
  | unicode a b c d n h =>
    simp only [hex4, Option.bind_eq_bind, Option.bind_eq_some_iff] at h
    obtain ⟨_, ha, _, hb, _, hc, _, hd, -⟩ := h
    have digit : ∀ {x m}, hexDigit x = some m → Passes true [x] := fun hx =>
      passes_plain (hexDigit_ne hx).1 (hexDigit_ne hx).2
    exact (passes_escape 'u').append
      (.cons (digit ha) (.cons (digit hb) (.cons (digit hc) (digit hd))))

theorem passes_stringBody {t : List Char} {cs : PyStr} (h : StringBody t cs) : Passes true t := by
  induction h with
  | nil => exact .nil
  | cons h _ ih => exact (passes_character h).append ih

theorem passes_string {t : List Char} {cs : PyStr} (h : StringBody t cs) :
    Passes false ('"' :: (t ++ ['"'])) :=
  (passes_stringBody h).enclose [] (fun _ => rfl) (fun _ => rfl)

/-- A property that the rules of the grammar keep. -/
structure Kept (Q : List Char → Prop) : Prop where
  neutral : ∀ t, (∀ c ∈ t, Neutral c) → Q t
  append : ∀ t u, Q t → Q u → Q (t ++ u)
  string : ∀ t cs, StringBody t cs → Q ('"' :: (t ++ ['"']))
  array : ∀ t, Q t → Q ('[' :: (t ++ [']']))
  object : ∀ t, Q t → Q ('{' :: (t ++ ['}']))

namespace Kept

variable {Q : List Char → Prop} {t : List Char}

theorem nil (hQ : Kept Q) : Q [] := hQ.neutral [] (by simp)

theorem cons (hQ : Kept Q) {c : Char} (hc : Neutral c) (ht : Q t) : Q (c :: t) :=
  hQ.append [c] t (hQ.neutral [c] (by simpa using hc)) ht

theorem ws (hQ : Kept Q) {w : List Char} (h : Ws w) : Q w :=
  hQ.neutral w fun c hc => isWs_neutral (h c hc)

theorem digits (hQ : Kept Q) {ds : List Char} (h : ∀ d ∈ ds, isDigit d = true) : Q ds :=
  hQ.neutral ds fun d hd => isDigit_neutral (h d hd)

theorem unsigned (hQ : Kept Q) {neg : Bool} {v : Json} (h : Unsigned neg t v) : Q t := by
  obtain ⟨hi, hf, he⟩ := h
  refine hQ.append _ _ ?_ (hQ.append _ _ ?_ ?_)
  · cases hi with
    | zero => exact hQ.cons (by decide) hQ.nil
    | digits c ds _ h => exact hQ.digits h
  · cases hf with
    | none => exact hQ.nil
    | some _ _ h => exact hQ.cons (by decide) (hQ.digits h)
  · cases he with
    | none => exact hQ.nil
    | some c sgn ds hc hs _ h =>
      refine hQ.cons ?_ (hQ.append _ _ (hQ.neutral _ ?_) (hQ.digits h))
      · rcases hc with rfl | rfl <;> decide
      · intro d hd
        rcases hs d (by simpa using hd) with rfl | rfl <;> decide

section
variable {α : Type} {P : List Char → α → Prop} {as : List α}

theorem sequence (hQ : Kept Q) (hP : ∀ t a, P t a → Q t) (h : Sequence P t as) : Q t := by
  induction h with
  | last h hw => exact hQ.append _ _ (hP _ _ h) (hQ.ws hw)
  | cons h hw hw' _ ih =>
    exact hQ.append _ _ (hP _ _ h) (hQ.append _ _ (hQ.ws hw)
      (hQ.cons (by decide) (hQ.append _ _ (hQ.ws hw') ih)))

theorem bracketed (hQ : Kept Q) (hP : ∀ t a, P t a → Q t) (h : Bracketed P t as) : Q t := by
  cases h with
  | empty hw => exact hQ.ws hw
  | items hw hs => exact hQ.append _ _ (hQ.ws hw) (hQ.sequence hP hs)

end

theorem member (hQ : Kept Q) {P : List Char → Json → Prop} (hP : ∀ t v, P t v → Q t)
    (t : List Char) (m : PyStr × Json) (h : Member P t m) : Q t := by
  obtain ⟨hk, hw, hw', hv⟩ := h
  have hvalue := hQ.append _ _ (hQ.ws hw) (hQ.cons (c := ':') (by decide)
    (hQ.append _ _ (hQ.ws hw') (hP _ _ hv)))
  simpa using hQ.append _ _ (hQ.string _ _ hk) hvalue

/-- Every text of a value has it. -/
theorem value (hQ : Kept Q) {v : Json} (h : Json.Value t v) : Q t := by
  induction h with
  | word h =>
    have hall : ∀ w ∈ words, w.1.all (Neutral ·) = true := by decide
    exact hQ.neutral _ fun c hc => of_decide_eq_true (List.all_eq_true.1 (hall _ h) c hc)
  | positive h => exact hQ.unsigned h
  | negative h => exact hQ.cons (by decide) (hQ.unsigned h)
  | string h => exact hQ.string _ _ h
  | array _ h ih => exact hQ.array _ (hQ.bracketed ih h)
  | object _ h ih => exact hQ.object _ (hQ.bracketed (hQ.member ih) h)

end Kept

/-- The scan passes through every text of a value. -/
theorem kept_passes : Kept (Passes false) where
  neutral _ := .neutral
  append _ _ := .append
  string _ _ := passes_string
  array _ h := h.enclose ['['] (fun _ => rfl) (fun _ => rfl)
  object _ h := h.enclose ['{'] (fun _ => rfl) (fun _ => rfl)

/-! ## Cut messages -/

theorem objectText_inv {t : List Char} {d : Dict} (h : ObjectText t d) :
    ∃ u, t = '{' :: (u ++ ['}']) ∧ Passes false u := by
  obtain ⟨hhead, h⟩ := h
  generalize Json.obj d = v at h
  cases h with
  | word h =>
    obtain ⟨c, u, hw, -, -, -, -, hne, -⟩ := word_head h
    simp [hw, hne] at hhead
  | positive h =>
    obtain ⟨c, u, rfl, hc⟩ := unsigned_head h
    simp [(isDigit_neutral hc).2.2.1] at hhead
  | object hQ h =>
    exact ⟨_, rfl, kept_passes.bracketed
      (kept_passes.member fun t v hq => kept_passes.value (hQ t v hq)) h⟩
  | _ => simp at hhead

/-- The first brace of a message is open at every cut. -/
theorem scanText_inside {t p u : List Char} {d : Dict} (h : ObjectText t d) (ht : t = p ++ u)
    (hp : p ≠ []) (hu : u ≠ []) :
    ∃ opened b e, scanText ⟨[], false, false⟩ p = some ⟨opened ++ ['{'], b, e⟩ := by
  obtain ⟨v, rfl, hv⟩ := objectText_inv h
  cases p with
  | nil => exact absurd rfl hp
  | cons c p =>
    obtain ⟨rfl, htail⟩ := List.cons.inj ht
    obtain ⟨q, rfl⟩ : ∃ q, v = p ++ q := by
      rcases List.append_eq_append_iff.1 htail with ⟨q, rfl, hq⟩ | ⟨q, hq, -⟩
      · cases q with
        | nil => exact ⟨[], by simp⟩
        | cons e q => simp_all
      · exact ⟨q, hq⟩
    exact hv.inside ['{'] p q rfl

/-- **A message with its end cut off looks incomplete.** -/
theorem looksIncomplete_prefix {t p u : List Char} {d : Dict} (h : ObjectText t d)
    (ht : t = p ++ u) (hp : p ≠ []) (hu : u ≠ []) : looksIncomplete p = true := by
  obtain ⟨opened, b, e, hscan⟩ := scanText_inside h ht hp hu
  rw [scanText] at hscan
  simp [looksIncomplete, hscan]

end TradeStation.Stream
