import Mathlib.Data.List.Nodup
import Mathlib.Tactic.Common

/-!
# Bounded walks along a chain of pages

A source answers requests with pages, and a page may name the token to go on with. A chain is what
the pages make of a source: the request without a token, then one for each token, until a page names
none. It may be infinite, or come back to a token; `walk` follows it for at most so many pages and
gives up on a token it has seen.

* `walk_complete_iff`: the walk returns pages exactly if they are the whole chain, no more than the
  bound, and no token among them occurs twice.
* `walk_asks`: what it has requested is the start of the chain, with no token twice.
* `walk_unasked`: it is kept from a request only if the request cannot be formed.
-/

namespace TradeStation.Foundations

/-- A source of pages: the request for a token (`none` where there is none to be formed), what it
answers after some requests, and the token a page names. -/
structure PageSource (R T P : Type) where
  request : Option T → Option R
  answer : List R → P
  next : P → Option T

/-- How a walk ends. -/
inductive WalkEnd (P : Type)
  | complete (pages : List P)
  | repeated
  | exceeded
  | unasked

/-- The end of a walk, seen from a page before it. -/
def WalkEnd.behind {P : Type} (page : P) : WalkEnd P → WalkEnd P
  | .complete pages => .complete (page :: pages)
  | e => e

namespace PageSource

variable {R T P : Type} (source : PageSource R T P)

/-- The tokens that some pages name. -/
def tokens (pages : List P) : List T := pages.filterMap source.next

/-- Behind the requests `history`, with `token` to go on with, the chain is `pages` and ends. -/
inductive Chain : List R → Option T → List P → Prop
  | last {history : List R} {token : Option T} {request : R}
    (asked : source.request token = some request)
    (done : source.next (source.answer (history ++ [request])) = none) :
    Chain history token [source.answer (history ++ [request])]
  | more {history : List R} {token : Option T} {request : R} {next : T} {pages : List P}
    (asked : source.request token = some request)
    (named : source.next (source.answer (history ++ [request])) = some next)
    (rest : Chain (history ++ [request]) (some next) pages) :
    Chain history token (source.answer (history ++ [request]) :: pages)

/-- Behind the requests `history`, with `token` to go on with, `requests` are the first ones of the
chain. The tokens of all but the first are `tokens`. -/
inductive Asks : List R → Option T → List R → List T → Prop
  | nil {history : List R} {token : Option T} : Asks history token [] []
  | last {history : List R} {token : Option T} {request : R}
    (asked : source.request token = some request) : Asks history token [request] []
  | more {history : List R} {token : Option T} {request request' : R} {next : T}
    {requests : List R} {tokens : List T} (asked : source.request token = some request)
    (named : source.next (source.answer (history ++ [request])) = some next)
    (rest : Asks (history ++ [request]) (some next) (request' :: requests) tokens) :
    Asks history token (request :: request' :: requests) (next :: tokens)

/-- Follow the chain for at most some pages, and stop at a token of `seen`: the end, and the
requests. -/
def walk [DecidableEq T] : ℕ → List R → Option T → List T → WalkEnd P × List R
  | 0, history, _, _ => (.exceeded, history)
  | n + 1, history, token, seen =>
    match source.request token with
    | none => (.unasked, history)
    | some request =>
      let history := history ++ [request]
      let page := source.answer history
      match source.next page with
      | none => (.complete [page], history)
      | some next =>
        if next ∈ seen then (.repeated, history)
        else
          let rest := walk n history (some next) (next :: seen)
          (rest.1.behind page, rest.2)

variable {source}

section
variable {history : List R} {token : Option T} {request : R} {pages : List P}

theorem Chain.ne_nil (h : source.Chain history token pages) : pages ≠ [] := by
  cases h <;> simp

theorem Chain.asked (h : source.Chain history token pages) : source.request token ≠ none := by
  cases h with
  | last asked done => simp [asked]
  | more asked named rest => simp [asked]

/-- A chain whose first page names no token. -/
theorem chain_last (hrequest : source.request token = some request)
    (hnext : source.next (source.answer (history ++ [request])) = none) :
    source.Chain history token pages ↔ pages = [source.answer (history ++ [request])] := by
  constructor
  · intro h
    cases h with
    | last asked done =>
      cases hrequest.symm.trans asked
      rfl
    | more asked named rest =>
      cases hrequest.symm.trans asked
      cases hnext.symm.trans named
  · rintro rfl
    exact .last hrequest hnext

/-- A chain whose first page names a token. -/
theorem chain_more {next : T} (hrequest : source.request token = some request)
    (hnext : source.next (source.answer (history ++ [request])) = some next) :
    source.Chain history token pages ↔
      ∃ rest, pages = source.answer (history ++ [request]) :: rest ∧
        source.Chain (history ++ [request]) (some next) rest := by
  constructor
  · intro h
    cases h with
    | last asked done =>
      cases hrequest.symm.trans asked
      cases hnext.symm.trans done
    | more asked named rest =>
      cases hrequest.symm.trans asked
      cases hnext.symm.trans named
      exact ⟨_, rfl, rest⟩
  · rintro ⟨rest, rfl, h⟩
    exact .more hrequest hnext h

end

/-- One more token that is neither among the others nor seen. -/
theorem unseen_cons {t : T} {ts seen : List T} :
    ((t :: ts).Nodup ∧ ∀ u ∈ t :: ts, u ∉ seen) ↔
      t ∉ seen ∧ ts.Nodup ∧ ∀ u ∈ ts, u ∉ t :: seen := by
  rw [List.nodup_cons, List.forall_mem_cons]
  simp only [List.mem_cons, not_or]
  constructor
  · rintro ⟨⟨hnew, hnodup⟩, ht, hts⟩
    exact ⟨ht, hnodup, fun u hu => ⟨fun heq => hnew (heq ▸ hu), hts u hu⟩⟩
  · rintro ⟨ht, hnodup, hts⟩
    exact ⟨⟨fun hmem => (hts t hmem).1 rfl, hnodup⟩, ht, fun u hu => (hts u hu).2⟩

section
variable [DecidableEq T]

theorem behind_eq_complete {page : P} {e : WalkEnd P} {pages : List P} :
    e.behind page = .complete pages ↔ ∃ rest, e = .complete rest ∧ pages = page :: rest := by
  cases e with
  | complete rest =>
    simp only [WalkEnd.behind, WalkEnd.complete.injEq]
    constructor
    · intro h
      exact ⟨rest, rfl, h.symm⟩
    · rintro ⟨_, rfl, rfl⟩
      rfl
  | _ => simp [WalkEnd.behind]

/-- **A walk returns the whole chain or nothing.** -/
theorem walk_complete_iff (n : ℕ) (history : List R) (token : Option T) (seen : List T)
    (pages : List P) :
    (source.walk n history token seen).1 = .complete pages ↔
      source.Chain history token pages ∧ pages.length ≤ n ∧ (source.tokens pages).Nodup ∧
        ∀ t ∈ source.tokens pages, t ∉ seen := by
  induction n generalizing history token seen pages with
  | zero =>
    constructor
    · intro h
      cases h
    · rintro ⟨hchain, hlength, -⟩
      have hpos := List.length_pos_of_ne_nil hchain.ne_nil
      omega
  | succ n ih =>
    rw [walk]
    cases hrequest : source.request token with
    | none =>
      constructor
      · intro h
        cases h
      · rintro ⟨hchain, -⟩
        exact absurd hrequest hchain.asked
    | some request =>
      dsimp only
      cases hnext : source.next (source.answer (history ++ [request])) with
      | none =>
        rw [chain_last hrequest hnext]
        constructor
        · intro h
          cases h
          exact ⟨rfl, by simp, by simp [tokens, hnext], by simp [tokens, hnext]⟩
        · rintro ⟨rfl, -⟩
          rfl
      | some next =>
        dsimp only
        have hhead : ∀ rest, source.tokens (source.answer (history ++ [request]) :: rest) =
            next :: source.tokens rest := by
          intro rest
          simp [tokens, hnext]
        rw [chain_more hrequest hnext]
        split_ifs with hseen
        · constructor
          · intro h
            cases h
          · rintro ⟨⟨rest, rfl, hchain⟩, -, hunseen⟩
            rw [hhead, unseen_cons] at hunseen
            exact absurd hseen hunseen.1
        · rw [behind_eq_complete]
          constructor
          · rintro ⟨rest, hrest, rfl⟩
            obtain ⟨hchain, hlength, hunseen⟩ := (ih _ _ _ _).1 hrest
            refine ⟨⟨rest, rfl, hchain⟩, by simpa using hlength, ?_⟩
            rw [hhead, unseen_cons]
            exact ⟨hseen, hunseen⟩
          · rintro ⟨⟨rest, rfl, hchain⟩, hlength, hunseen⟩
            rw [hhead, unseen_cons] at hunseen
            have hlength' : rest.length ≤ n := by simpa using hlength
            exact ⟨rest, (ih _ _ _ _).2 ⟨hchain, hlength', hunseen.2⟩, rfl⟩

/-- **A walk asks along the chain**, no more often than it may and never for a token again. -/
theorem walk_asks (n : ℕ) (history : List R) (token : Option T) (seen : List T) :
    ∃ requests tokens, (source.walk n history token seen).2 = history ++ requests ∧
      source.Asks history token requests tokens ∧ requests.length ≤ n ∧ tokens.Nodup ∧
      ∀ t ∈ tokens, t ∉ seen := by
  induction n generalizing history token seen with
  | zero => exact ⟨[], [], by simp [walk], .nil, by simp, by simp, by simp⟩
  | succ n ih =>
    rw [walk]
    cases hrequest : source.request token with
    | none => exact ⟨[], [], by simp, .nil, by simp, by simp, by simp⟩
    | some request =>
      have hone : source.Asks history token [request] [] := .last hrequest
      dsimp only
      cases hnext : source.next (source.answer (history ++ [request])) with
      | none => exact ⟨[request], [], rfl, hone, by simp, by simp, by simp⟩
      | some next =>
        dsimp only
        split_ifs with hseen
        · exact ⟨[request], [], rfl, hone, by simp, by simp, by simp⟩
        · obtain ⟨requests, tokens, hwalk, hasks, hlength, hunseen⟩ :=
            ih (history ++ [request]) (some next) (next :: seen)
          cases requests with
          | nil => exact ⟨[request], [], by simp [hwalk], hone, by simp, by simp, by simp⟩
          | cons request' requests =>
            exact ⟨request :: request' :: requests, next :: tokens, by simp [hwalk],
              .more hrequest hnext hasks, by simpa using hlength, unseen_cons.2 ⟨hseen, hunseen⟩⟩

/-- A walk that asks no further has come upon a token that no request can be formed for. -/
theorem walk_unasked (n : ℕ) (history : List R) (token : Option T) (seen : List T)
    (h : (source.walk n history token seen).1 = .unasked) :
    ∃ stuck, source.request stuck = none ∧
      (stuck = token ∨ ∃ requests, source.next (source.answer requests) = stuck) := by
  induction n generalizing history token seen with
  | zero => cases h
  | succ n ih =>
    rw [walk] at h
    cases hrequest : source.request token with
    | none => exact ⟨token, hrequest, .inl rfl⟩
    | some request =>
      rw [hrequest] at h
      dsimp only at h
      cases hnext : source.next (source.answer (history ++ [request])) with
      | none =>
        rw [hnext] at h
        cases h
      | some next =>
        rw [hnext] at h
        dsimp only at h
        split_ifs at h with hseen
        have hrest : (source.walk n (history ++ [request]) (some next) (next :: seen)).1 =
            .unasked := by
          cases hend : (source.walk n (history ++ [request]) (some next) (next :: seen)).1 with
          | unasked => rfl
          | _ =>
            rw [hend] at h
            cases h
        obtain ⟨stuck, hstuck, rfl | hnamed⟩ := ih _ _ _ hrest
        · exact ⟨some next, hstuck, .inr ⟨_, hnext⟩⟩
        · exact ⟨stuck, hstuck, .inr hnamed⟩

end

end PageSource

end TradeStation.Foundations
