import TradeStation.Auth.SharedFile
import TradeStation.Boundary
import TradeStation.Foundations.Watch

/-!
# Clients with one manager

Any number of calls of clients whose token provider is one `OAuthManager`. A call asks the provider for
a token by running the manager's own coroutine, so that its steps, and those of every other call, come
in any order.

* `managerWatch`, `sessionWatch`: what a call does with the lock, the store, and the token in hand.
* `closing_conduct`: every coroutine of a client keeps to that.
* `rejected_renewed`: so behind a 401 no call sends a request but with a token that was asked for since.
-/

namespace TradeStation

open Python Foundations

/-! ## The composition -/

/-- A coroutine of a client over a manager: the operations of the manager, and its own. -/
abbrev Session (α : Type) := Coro (TokenOp ⊕ Op) (Sum.elim TokenOp.Answer Op.Answer) Exc α

/-- What a coroutine of a manager comes to as an answer of the token provider. -/
def OAuthManager.provides (p : TokenProgram PyStr) : Session (Except Exc PyStr) :=
  tryCatch (do return .ok (← Coro.inl p)) fun exc => return .error exc

/-- An operation that the manager is not asked for. -/
def Session.wire (op : Op) : Session op.Answer := .await (.inr op) .ret

/-- The manager as the token provider of a client. -/
def OAuthManager.serves (manager : OAuthManager) : (op : Op) → Session op.Answer
  | .provider .getAccessToken => OAuthManager.provides manager.getAccessToken
  | .provider .forceRefreshAccessToken => OAuthManager.provides manager.forceRefreshAccessToken
  | .send request => Session.wire (.send request)
  | .sleep delaySeconds => Session.wire (.sleep delaySeconds)
  | .uniform low high => Session.wire (.uniform low high)
  | .now => Session.wire .now
  | .exists path => Session.wire (.exists path)

/-- A coroutine of a client over a manager; what it returns does not matter here. -/
def OAuthManager.session {α : Type} (manager : OAuthManager) (p : Program α) : Session Unit := do
  let _ ← Coro.link manager.serves p
  return ()

/-- A call performs an operation. What is not the manager's is answered as the parties like. -/
inductive SessionPerforms {I : Type} (i : I) (w : TokenWorld Unit) :
    (op : TokenOp ⊕ Op) → Sum.elim TokenOp.Answer Op.Answer op → TokenWorld Unit → Prop
  | token {op : TokenOp} {x : op.Answer} {w' : TokenWorld Unit}
    (h : Performs (fun _ => ()) i w op x w') : SessionPerforms i w (.inl op) x w'
  | wire (op : Op) (x : op.Answer) : SessionPerforms i w (.inr op) x w

/-- Calls over one manager, and what they share. -/
abbrev SessionPool (I : Type) :=
  Pool (TokenWorld Unit) I (TokenOp ⊕ Op) (Sum.elim TokenOp.Answer Op.Answer) Exc Unit

/-- What happens there, in order. -/
abbrev SessionLog (I : Type) :=
  List (Pool.Label I (TokenOp ⊕ Op) (Sum.elim TokenOp.Answer Op.Answer))

/-- A step of a call, or a move of the clock. -/
abbrev SessionStep {I : Type} [DecidableEq I] (allowed : ℤ → ℤ → Prop) :
    SessionPool I → Pool.Label I (TokenOp ⊕ Op) (Sum.elim TokenOp.Answer Op.Answer) →
      SessionPool I → Prop :=
  Pool.Step SessionPerforms (Drifts allowed)

/-! ## The watch -/

/-- What a call does with the lock. -/
inductive Phase
  | outside
  | entered
  | loaded (current : OAuthToken)
  /-- The token endpoint has answered a refresh of the token. -/
  | answered (current : OAuthToken) (response : HTTPResponse)

/-- What a watch keeps of a call. -/
structure Seat where
  phase : Phase
  /-- The token that was loaded or stored last. -/
  hand : Option OAuthToken
  /-- No 401 has come since the last swap. -/
  renewed : Bool

/-- What is loaded under the lock. -/
def Phase.load (stored : MemoryTokenStore.Stored) : Phase → Phase
  | .outside => .outside
  | _ => stored.elim .entered .loaded

/-- An answer of the token endpoint. -/
def Phase.answer (response : HTTPResponse) : Phase → Phase
  | .loaded current => .answered current response
  | phase => phase

/-- The watch over a manager. -/
def managerWatch (manager : OAuthManager) : Watch TokenOp TokenOp.Answer Seat where
  next seat event :=
    match event with
    | ⟨.acquire, _⟩ => { seat with phase := .entered }
    | ⟨.release, _⟩ => { seat with phase := .outside }
    | ⟨.load, stored⟩ => { seat with phase := seat.phase.load stored, hand := stored }
    | ⟨.compareAndSwapRefreshToken _ replacement, swapped⟩ =>
      ⟨.entered, if swapped then some replacement else seat.hand, true⟩
    | ⟨.send _, .ok response⟩ => { seat with phase := seat.phase.answer response }
    | _ => seat
  allows seat op :=
    match op with
    | .acquire => seat.phase = .outside
    | .release => seat.phase ≠ .outside
    | .save _ => False
    | .compareAndSwapRefreshToken expected replacement =>
      ∃ current sent response, seat.phase = .answered current response ∧
        current.refreshToken = some sent ∧ expected = some sent ∧
        manager.Grants sent response replacement
    | .send request =>
      ∃ current sent, seat.phase = .loaded current ∧ current.refreshToken = some sent ∧
        request = manager.refreshRequest sent
    | _ => True

/-- The request carries a token. -/
def HTTPRequest.Bears (request : HTTPRequest) (token : OAuthToken) : Prop :=
  request.headers.get (str "Authorization") = some (str "Bearer " ++ token.accessToken)

/-- The watch over a call. -/
def sessionWatch (manager : OAuthManager) :
    Watch (TokenOp ⊕ Op) (Sum.elim TokenOp.Answer Op.Answer) Seat where
  next seat event :=
    match event with
    | ⟨.inl op, x⟩ => (managerWatch manager).next seat ⟨op, x⟩
    | ⟨.inr (.send _), .ok response⟩ =>
      if response.statusCode = 401 then { seat with renewed := false } else seat
    | ⟨.inr _, _⟩ => seat
  allows seat op :=
    match op with
    | .inl op => (managerWatch manager).allows seat op
    | .inr (.send request) =>
      seat.phase = .outside ∧ seat.renewed = true ∧ ∃ token, seat.hand = some token ∧ request.Bears token
    | .inr _ => True

/-! ## The manager under watch -/

section
variable {manager : OAuthManager} {seat : Seat}

/-- A refresh returns the token in hand; and if it had to be renewed, it is. -/
def Handed (forced : Bool) (seat seat' : Seat) (r : Except Exc OAuthToken) : Prop :=
  ∀ token, r = .ok token → seat'.hand = some token ∧
    (seat.renewed = true ∨ forced = true → seat'.renewed = true)

theorem handed_error {forced : Bool} {seat' : Seat} {exc : Exc} :
    Handed forced seat seat' (.error exc) := by
  simp [Handed]

/-- A refresh has ended under the lock. -/
def Refreshed (forced : Bool) (seat seat' : Seat) (r : Except Exc OAuthToken) : Prop :=
  seat'.phase ≠ .outside ∧ Handed forced seat seat' r

theorem readToken_keeps {response : HTTPResponse} {existing : Option PyStr} :
    Coro.Keeps (managerWatch manager) seat
      (manager.readToken response "token refresh failed" existing) fun seat' r => seat' = seat ∧
        ∃ ticks, Coro.Runs (manager.readToken response "token refresh failed" existing) ticks r := by
  refine readToken_ticks.keeps ?_
  rintro op rfl
  exact ⟨trivial, fun _ => rfl⟩

/-- A refresh, from its request on. -/
theorem exchange_keeps {current : OAuthToken} {sent : PyStr} (hphase : seat.phase = .loaded current)
    (hsent : current.refreshToken = some sent) (forced : Bool) (before : Seat) :
    Coro.Keeps (managerWatch manager) seat (manager.exchangeRefreshToken sent)
      (Refreshed forced before) := by
  refine ⟨⟨current, sent, hphase, hsent, rfl⟩, fun answer => ?_⟩
  cases answer with
  | error exc => exact ⟨by simp [managerWatch, hphase], handed_error⟩
  | ok response =>
    refine readToken_keeps.bind ?_ ?_
    · rintro _ replacement ⟨rfl, ticks, hread⟩
      refine ⟨⟨current, sent, response, by simp [managerWatch, hphase, Phase.answer], hsent, rfl,
        ticks, hread⟩, fun swapped => ?_⟩
      cases swapped with
      | true =>
        refine ⟨by simp [managerWatch], ?_⟩
        rintro token ⟨⟩
        exact ⟨rfl, fun _ => rfl⟩
      | false =>
        refine ⟨trivial, fun latest => ?_⟩
        cases latest with
        | none => exact ⟨by simp [managerWatch, Phase.load], handed_error⟩
        | some latest =>
          refine ⟨by simp [managerWatch, Phase.load], ?_⟩
          rintro token ⟨⟩
          exact ⟨rfl, fun _ => rfl⟩
    · rintro _ exc ⟨rfl, -⟩
      exact ⟨by simp [managerWatch, hphase, Phase.answer], handed_error⟩

/-- A look at a token. -/
theorem expiresSoon_keeps (token : OAuthToken) :
    Coro.Keeps (managerWatch manager) seat (TokenProgram.expiresSoon token) fun seat' _ =>
      seat' = seat :=
  ⟨trivial, fun _ => Coro.keeps_ofExcept.2 rfl⟩

theorem refreshUnderLock_keeps (hphase : seat.phase = .entered) (force : Bool) :
    Coro.Keeps (managerWatch manager) seat (manager.refreshUnderLock force)
      (Refreshed force seat) := by
  refine Coro.keeps_ask_bind.2 ⟨trivial, fun stored => ?_⟩
  cases stored with
  | none => exact ⟨by simp [managerWatch, hphase, Phase.load], handed_error⟩
  | some current =>
    dsimp only
    cases hsent : current.refreshToken with
    | none => exact ⟨by simp [managerWatch, hphase, Phase.load], handed_error⟩
    | some sent =>
      have hloaded : ((managerWatch manager).next seat ⟨.load, some current⟩).phase =
          .loaded current := by
        simp [managerWatch, hphase, Phase.load]
      cases force with
      | true => exact exchange_keeps hloaded hsent true seat
      | false =>
        refine (expiresSoon_keeps current).bind ?_ ?_
        · rintro _ soon rfl
          cases soon with
          | true => exact exchange_keeps hloaded hsent false seat
          | false =>
            refine ⟨by simp [hloaded], ?_⟩
            rintro token ⟨⟩
            exact ⟨rfl, fun h => h.resolve_right (by simp)⟩
        · rintro _ exc rfl
          exact ⟨by simp [hloaded], handed_error⟩

theorem refreshAccessToken_keeps (hphase : seat.phase = .outside) (force : Bool) :
    Coro.Keeps (managerWatch manager) seat (manager.refreshAccessToken force)
      fun seat' r => seat'.phase = .outside ∧ Handed force seat seat' r := by
  refine Coro.keeps_ask_bind.2 ⟨hphase, fun _ => ?_⟩
  have hunder : Coro.Keeps (managerWatch manager) ((managerWatch manager).next seat ⟨.acquire, ()⟩)
      (manager.refreshUnderLock force) (Refreshed force seat) :=
    refreshUnderLock_keeps rfl force
  have hcaught := hunder.caught (R := fun seat' r => ∃ r', r = .ok r' ∧ Refreshed force seat seat' r')
    fun seat' r h => ⟨r, rfl, h⟩
  refine hcaught.bind ?_ ?_
  · rintro seat' _ ⟨r, ⟨⟩, hinside, hrefreshed⟩
    refine Coro.keeps_ask_bind.2 ⟨hinside, fun _ => Coro.keeps_ofExcept.2 ⟨rfl, hrefreshed⟩⟩
  · rintro seat' exc ⟨r, ⟨⟩, -⟩

/-- What the manager is asked for by a client. -/
def Given (forced : Bool) (seat seat' : Seat) (r : Except Exc PyStr) : Prop :=
  seat'.phase = .outside ∧ ∀ text, r = .ok text → ∃ token, text = token.accessToken ∧
    seat'.hand = some token ∧ (seat.renewed = true ∨ forced = true → seat'.renewed = true)

/-- The text of a token that was handed over. -/
theorem given_of_handed {forced : Bool} {seat₀ : Seat} {p : TokenProgram OAuthToken}
    (hp : Coro.Keeps (managerWatch manager) seat p fun seat' r =>
      seat'.phase = .outside ∧ Handed forced seat₀ seat' r) :
    Coro.Keeps (managerWatch manager) seat (do
      let token ← p
      return token.accessToken) (Given forced seat₀) := by
  refine hp.bind ?_ ?_
  · rintro seat' token ⟨hphase, hhanded⟩
    refine ⟨hphase, ?_⟩
    rintro text ⟨⟩
    exact ⟨token, rfl, hhanded token rfl⟩
  · rintro seat' exc ⟨hphase, -⟩
    exact ⟨hphase, by simp⟩

theorem getAccessToken_keeps (hphase : seat.phase = .outside) :
    Coro.Keeps (managerWatch manager) seat manager.getAccessToken (Given false seat) := by
  refine Coro.keeps_ask_bind.2 ⟨trivial, fun stored => ?_⟩
  have hphase' : ((managerWatch manager).next seat ⟨.load, stored⟩).phase = .outside := by
    simp [managerWatch, hphase, Phase.load]
  cases stored with
  | none => exact ⟨hphase', by simp⟩
  | some token =>
    refine (expiresSoon_keeps token).bind ?_ ?_
    · rintro _ soon rfl
      cases soon with
      | true => exact given_of_handed (refreshAccessToken_keeps hphase' false)
      | false =>
        refine ⟨hphase', ?_⟩
        rintro text ⟨⟩
        exact ⟨token, rfl, rfl, fun h => h.resolve_right (by simp)⟩
    · rintro _ exc rfl
      exact ⟨hphase', by simp⟩

theorem forceRefreshAccessToken_keeps (hphase : seat.phase = .outside) :
    Coro.Keeps (managerWatch manager) seat manager.forceRefreshAccessToken (Given true seat) :=
  given_of_handed (refreshAccessToken_keeps hphase true)

/-- The manager as it answers a client. -/
theorem provides_keeps {p : TokenProgram PyStr} {forced : Bool}
    (hp : Coro.Keeps (managerWatch manager) seat p (Given forced seat)) :
    Coro.Keeps (sessionWatch manager) seat (OAuthManager.provides p) fun seat' r =>
      ∃ answer, r = .ok answer ∧ Given forced seat seat' answer := by
  refine (Coro.Keeps.inl (m := sessionWatch manager) hp).caught ?_
  exact fun seat' answer h => ⟨answer, rfl, h⟩

end

/-! ## Clients under watch -/

/-- Nothing is under way, and the last token was not rejected. -/
def Seat.Ready (seat : Seat) : Prop := seat.phase = .outside ∧ seat.renewed = true

/-- A coroutine of a client that is in order from a ready seat on, with the end that `Q` says. -/
def InOrder {α : Type} (manager : OAuthManager) (p : Program α) (Q : Seat → Except Exc α → Prop) :
    Prop :=
  ∀ seat : Seat, seat.Ready → Coro.Keeps (sessionWatch manager) seat (Coro.link manager.serves p) Q

/-- A coroutine that leaves its seat ready where it returns. -/
def Orderly {α : Type} (manager : OAuthManager) (p : Program α) : Prop :=
  InOrder manager p fun seat r => ∀ a, r = .ok a → seat.Ready

/-- A coroutine behind which nothing comes. -/
def Closing {α : Type} (manager : OAuthManager) (p : Program α) : Prop :=
  InOrder manager p fun _ _ => True

section
variable {manager : OAuthManager} {α β : Type} {Q : Seat → Except Exc β → Prop}

theorem Orderly.bind {p : Program α} {f : α → Program β} (hp : Orderly manager p)
    (hf : ∀ a, InOrder manager (f a) Q) (hQ : ∀ seat exc, Q seat (.error exc)) :
    InOrder manager (p >>= f) Q := by
  intro seat hseat
  rw [Coro.link_bind]
  exact (hp seat hseat).bind (fun seat' a hready => hf a seat' (hready a rfl))
    fun seat' exc _ => hQ seat' exc

theorem InOrder.check {x : Except Exc α} {f : α → Program β}
    (hf : ∀ a, x = .ok a → InOrder manager (f a) Q) (hQ : ∀ seat exc, Q seat (.error exc)) :
    InOrder manager (Coro.ofExcept x >>= f) Q := by
  cases x with
  | ok a => exact hf a rfl
  | error exc => exact fun seat _ => hQ seat exc

theorem orderly_ofExcept (x : Except Exc α) : Orderly manager (Coro.ofExcept x) := by
  intro seat hseat
  rw [Coro.link_ofExcept]
  exact Coro.keeps_ofExcept.2 fun _ _ => hseat

theorem Orderly.closing {p : Program α} (hp : Orderly manager p) : Closing manager p :=
  fun seat hseat => (hp seat hseat).mono fun _ _ _ => trivial

theorem orderly_quiet {p : Program α} (hp : Coro.Only Op.Quiet p) : Orderly manager p := by
  intro seat hseat
  refine (hp.keeps_link (I := Seat.Ready) hseat ?_).mono fun _ _ hready _ _ => hready
  intro seat op hready hop
  cases op with
  | provider | send => exact hop.elim
  | sleep | uniform | now | «exists» => exact ⟨trivial, fun x => ⟨hready, x, rfl⟩⟩

/-! ### Requests -/

theorem bears_request (client : RestClient) (call : Call) (token : OAuthToken) :
    (client.request call token.accessToken).Bears token := by
  have haccept : str "Accept" ≠ str "Authorization" := by decide
  simp [HTTPRequest.Bears, Headers.get, RestClient.request, haccept]

/-- A token that is asked for, and what is done with it. -/
theorem provider_bind {method : ProviderMethod} {f : PyStr → Program β} {seat : Seat} {forced : Bool}
    (hp : Coro.Keeps (sessionWatch manager) seat (manager.serves (.provider method))
      fun seat' r => ∃ answer, r = .ok answer ∧ Given forced seat seat' answer)
    (hf : ∀ token seat', seat'.phase = .outside → seat'.hand = some token →
      (seat.renewed = true ∨ forced = true → seat'.renewed = true) →
      Coro.Keeps (sessionWatch manager) seat' (Coro.link manager.serves (f token.accessToken)) Q)
    (hQ : ∀ seat exc, Q seat (.error exc)) :
    Coro.Keeps (sessionWatch manager) seat
      (Coro.link manager.serves (Program.provider method >>= f)) Q := by
  refine hp.bind ?_ ?_
  · rintro seat' answer ⟨_, ⟨⟩, hphase, hgiven⟩
    cases answer with
    | error exc => exact hQ seat' exc
    | ok text =>
      obtain ⟨token, rfl, hhand, hrenewed⟩ := hgiven text rfl
      exact hf token seat' hphase hhand hrenewed
  · rintro seat' exc ⟨answer, ⟨⟩, -⟩

theorem send_bind {request : HTTPRequest} {f : Except Exc HTTPResponse → Program β} {seat : Seat} :
    Coro.Keeps (sessionWatch manager) seat (Coro.link manager.serves (Program.send request >>= f)) Q ↔
      (sessionWatch manager).allows seat (.inr (.send request)) ∧ ∀ answer,
        Coro.Keeps (sessionWatch manager)
          ((sessionWatch manager).next seat ⟨.inr (.send request), answer⟩)
          (Coro.link manager.serves (f answer)) Q := Iff.rfl

/-- An exception that is made without a token and without a request. -/
theorem quiet_throws {p : Program α} (hp : Coro.Only Op.Quiet p) {f : α → Exc} {seat : Seat}
    (hQ : ∀ seat exc, Q seat (.error exc)) :
    Coro.Keeps (sessionWatch manager) seat
      (Coro.link manager.serves (p >>= fun a => (throw (f a) : Program β))) Q := by
  have hany : Coro.Keeps (sessionWatch manager) seat (Coro.link manager.serves p) fun _ _ => True := by
    refine hp.keeps_link (I := fun _ => True) trivial ?_
    intro seat op _ hop
    cases op with
    | provider | send => exact hop.elim
    | sleep | uniform | now | «exists» => exact ⟨trivial, fun x => ⟨trivial, x, rfl⟩⟩
  rw [Coro.link_bind]
  exact hany.bind (fun seat' a _ => hQ seat' (f a)) fun seat' exc _ => hQ seat' exc

theorem next_send {seat : Seat} {request : HTTPRequest} {response : HTTPResponse}
    (h : response.statusCode ≠ 401) :
    (sessionWatch manager).next seat ⟨.inr (.send request), .ok response⟩ = seat :=
  if_neg h

/-- **A request is in order**: it is sent with the token in hand, and again behind a 401 only when the
manager has renewed that. -/
theorem orderly_requestLoop (client : RestClient) (call : Call) (attempt : ℕ) (refreshed : Bool) :
    Orderly manager (client.requestLoop call attempt refreshed) := by
  have hraised : ∀ (seat : Seat) (exc : Exc) (a : Json.Dict),
      (.error exc : Except Exc Json.Dict) = .ok a → seat.Ready := by
    rintro _ _ _ ⟨⟩
  intro seat hseat
  rw [RestClient.requestLoop]
  refine provider_bind (provides_keeps (getAccessToken_keeps hseat.1))
    (fun token seat' hphase hhand hrenewed => ?_) hraised
  have hready : seat'.Ready := ⟨hphase, hrenewed (.inl hseat.2)⟩
  refine send_bind.2
    ⟨⟨hphase, hready.2, token, hhand, bears_request client call token⟩, fun answer => ?_⟩
  cases answer with
  | error exc =>
    dsimp only
    split_ifs
    · exact hraised _ _
    · exact hraised _ _
    · exact hraised _ _
    · exact (orderly_quiet (quiet_sleep client _ _)).bind (fun _ => orderly_requestLoop client call _ _)
        hraised seat' hready
  | ok response =>
    dsimp only
    split_ifs with h401 hsuccess hambiguous hretry
    · have hphase' : ((sessionWatch manager).next seat'
          ⟨.inr (.send (client.request call token.accessToken)), .ok response⟩).phase = .outside := by
        simp [sessionWatch, h401.1, hphase]
      refine provider_bind (provides_keeps (forceRefreshAccessToken_keeps hphase'))
        (fun _ seat'' hphase'' _ hrenewed'' => ?_) hraised
      exact orderly_requestLoop client call attempt true seat'' ⟨hphase'', hrenewed'' (.inr rfl)⟩
    · have hstatus : response.statusCode ≠ 401 := by
        simp only [isSuccess, decide_eq_true_eq] at hsuccess
        omega
      rw [next_send hstatus]
      exact orderly_ofExcept _ seat' hready
    · exact quiet_throws (quiet_apiError client.lib response) hraised
    · have hstatus : response.statusCode ≠ 401 := by
        intro heq
        simp [isRetryable, heq] at hretry
      rw [next_send hstatus]
      exact (orderly_quiet (quiet_sleep client _ _)).bind
        (fun _ => orderly_requestLoop client call _ _) hraised seat' hready
    · exact quiet_throws (f := id) (quiet_apiError client.lib response) hraised
termination_by
  ((client.retryPolicy.maxAttempts - attempt).toNat, if refreshed then 0 else 1)
decreasing_by
  · exact Prod.Lex.left _ _ (by omega)
  · rw [h401.2]
    exact Prod.Lex.right _ (by simp)
  · exact Prod.Lex.left _ _ (by omega)

theorem orderly_requestJson (client : RestClient) (call : Call) :
    Orderly manager (client.requestJson call) :=
  orderly_requestLoop client call 1 false

/-! ### Methods -/

theorem Orderly.seq {p : Program α} {f : α → Program β} (hp : Orderly manager p)
    (hf : ∀ a, Orderly manager (f a)) : Orderly manager (p >>= f) := by
  refine hp.bind hf ?_
  rintro seat exc b ⟨⟩

theorem Orderly.check {x : Except Exc α} {f : α → Program β} (hf : ∀ a, Orderly manager (f a)) :
    Orderly manager (Coro.ofExcept x >>= f) :=
  (orderly_ofExcept x).seq hf

theorem Closing.check {x : Except Exc α} {f : α → Program β} (hf : ∀ a, Closing manager (f a)) :
    Closing manager (Coro.ofExcept x >>= f) :=
  InOrder.check (fun a _ => hf a) fun _ _ => trivial

theorem Closing.seq {p : Program α} {f : α → Program β} (hp : Orderly manager p)
    (hf : ∀ a, Closing manager (f a)) : Closing manager (p >>= f) :=
  hp.bind hf fun _ _ => trivial

theorem closing_ofExcept (x : Except Exc α) : Closing manager (Coro.ofExcept x) :=
  (orderly_ofExcept x).closing

/-- A request and a check of what it returns. -/
theorem closing_request (client : RestClient) (call : Call) (check : Json.Dict → Except Exc α) :
    Closing manager (client.requestJson call >>= fun payload => Coro.ofExcept (check payload)) :=
  .seq (orderly_requestJson client call) fun _ => closing_ofExcept _

theorem orderly_orderPages (client : TradeStationClient) (basePath : PyStr) (params : QueryParams)
    (pages : ℕ) (token : Option PyStr) (seen : List PyStr) (orders : List OrderSnapshot) :
    Orderly manager (client.orderPages client.rest.get basePath params pages token seen orders) := by
  have hreturn : ∀ x : Except Exc (List OrderSnapshot),
      Orderly manager (return x : Program (Except Exc (List OrderSnapshot))) :=
    fun x => orderly_ofExcept (.ok x)
  induction pages generalizing token seen orders with
  | zero => exact hreturn _
  | succ pages ih =>
    rw [TradeStationClient.orderPages]
    split
    · exact hreturn _
    · refine (orderly_requestJson client.rest _).seq fun payload => ?_
      split
      · exact hreturn _
      · split
        · exact hreturn _
        · split_ifs
          · exact hreturn _
          · exact ih _ _ _

theorem closing_getOrderPages (client : TradeStationClient) (basePath : PyStr)
    (params : QueryParams) : Closing manager (do
      let orders ← client.getOrderPages client.rest.get basePath params
      Coro.ofExcept orders) :=
  .seq (orderly_orderPages client _ _ _ _ _ _) fun _ => closing_ofExcept _

theorem orderly_validateOrders (client : TradeStationClient) (orders : List OrderRequest) :
    Orderly manager (validateOrdersForConfig client.lib client.config orders) :=
  orderly_quiet (only_validateOrdersForConfig (fun _ => trivial) _ _ _)

theorem orderly_validateOrder (client : TradeStationClient) (order : OrderRequest) :
    Orderly manager (validateOrderForConfig client.lib client.config order) :=
  orderly_quiet (only_validateOrderForConfig (fun _ => trivial) _ _ _)

theorem orderly_lookup (client : TradeStationClient) (accountId orderId : PyStr) :
    Orderly manager (client.assertOrderBelongsToAccount accountId orderId) := by
  have hfound : Orderly manager (client.getOrdersById [accountId] [orderId]) :=
    .check fun _ => .check fun _ => .check fun _ =>
      (orderly_requestJson client.rest _).seq fun _ => orderly_ofExcept _
  refine hfound.seq fun found => ?_
  split
  · exact orderly_ofExcept (.ok ())
  · exact orderly_ofExcept (.error _)

/-- The write at the end of a submission. -/
theorem closing_settle (client : TradeStationClient) (request : OrderWriteRequest)
    (payload : Json.Dict) (call : Call) :
    Closing manager (client.settle request payload (client.rest.requestJson call)) := by
  intro seat hseat
  have hcaught : Coro.Keeps (sessionWatch manager) seat
      (Coro.link manager.serves
        (TradeStationClient.catchAmbiguous (client.rest.requestJson call))) fun _ _ => True := by
    refine Coro.Keeps.link_tryCatch (Q := fun _ _ => True) ?_ (fun _ _ _ => trivial)
      fun seat' exc _ => ⟨trivial, ?_⟩
    · have hwrite : Closing manager (do return .ok (← client.rest.requestJson call) :
          Program (Except Exc Json.Dict)) :=
        .seq (orderly_requestJson client.rest call) fun _ _ _ => trivial
      exact hwrite seat hseat
    · split_ifs <;> trivial
  unfold TradeStationClient.settle
  simp only
  rw [Coro.link_bind]
  refine hcaught.bind (fun seat' caught _ => ?_) fun _ _ _ => trivial
  cases caught with
  | error exc => trivial
  | ok response =>
    dsimp only
    split <;> trivial

end

/-- What is in order about a method. -/
def Conduct.Closing (manager : OAuthManager) : Conduct → Prop
  | .coroutine p => TradeStation.Closing manager p
  | _ => True

/-- **Every coroutine of a client is in order** over a manager. -/
theorem closing_conduct (manager : OAuthManager) (client : TradeStationClient) (call : PublicCall) :
    (call.conduct client).Closing manager := by
  have hread : ∀ path, TradeStation.Closing manager (client.rest.get path) :=
    fun path => (orderly_requestJson client.rest _).closing
  have hitems : ∀ model key path, TradeStation.Closing manager (client.readItems model key path) :=
    fun model key path => closing_request client.rest _ _
  cases call with
  | getAccounts | getOptionSpreadTypes => exact .check fun _ => hitems _ _ _
  | getBalances | getBodBalances | getQuotes | getSymbols =>
    exact .check fun _ => .check fun _ => hitems _ _ _
  | getPositions => exact .check fun _ => .check fun _ => .check fun _ => .check fun _ => hitems _ _ _
  | getOrders | getHistoricalOrders =>
    exact .check fun _ => .check fun _ => .check fun _ => closing_getOrderPages client _ _
  | getOrdersById => exact .check fun _ => .check fun _ => .check fun _ => closing_request _ _ _
  | getHistoricalOrdersById =>
    exact .check fun _ => .check fun _ => .check fun _ => .check fun _ => closing_request _ _ _
  | confirmOrder order | whatIfOrder order =>
    exact .check fun _ => .check fun _ => .seq (orderly_validateOrder client order) fun _ =>
      closing_request _ _ _
  | placeOrder order =>
    exact .check fun _ => .check fun _ => .seq (orderly_validateOrder client order) fun _ =>
      closing_settle client _ _ _
  | confirmOrderGroup group | whatIfOrderGroup group =>
    exact .check fun _ => .check fun _ => .check fun _ =>
      .seq (orderly_validateOrders client group.orders) fun _ => closing_request _ _ _
  | placeOrderGroup group =>
    exact .check fun _ => .check fun _ => .seq (orderly_validateOrders client group.orders) fun _ =>
      closing_settle client _ _ _
  | replaceOrder accountId orderId replacement =>
    refine .check fun _ => .check fun _ => .check fun _ => .seq ?_ fun _ => .check fun _ =>
      .seq (orderly_lookup client accountId _) fun _ => ?_
    · exact orderly_quiet (only_assertCanSubmitOrders (fun _ => trivial) _ _ _)
    · split
      · exact closing_ofExcept (.error _)
      · exact .check fun _ => .check fun _ => closing_settle client _ _ _
  | cancelOrder accountId orderId =>
    exact .check fun _ => .check fun _ => .check fun _ => .check fun _ =>
      .seq (orderly_lookup client accountId _) fun _ => .check fun _ =>
        (orderly_requestJson client.rest _).closing
  | getRoutes | getActivationTriggers => exact .check fun _ => hread _
  | getCryptoSymbolNames =>
    refine .check fun _ => .seq (orderly_requestJson client.rest _) fun _ => ?_
    split
    · exact closing_ofExcept (.error _)
    · exact closing_ofExcept (.ok _)
  | getOptionExpirations | getBars =>
    exact .check fun _ => .check fun _ => .check fun _ => hitems _ _ _
  | getOptionStrikes =>
    exact .check fun _ => .check fun _ => .check fun _ => closing_request _ _ _
  | getOptionRiskReward => exact .check fun _ => closing_request _ _ _
  | _ => trivial

/-! ## What the lock keeps -/

/-- What a call under the lock has in hand is what is stored. -/
def Phase.Backed (store : MemoryTokenStore.Stored) : Phase → Prop
  | .loaded current | .answered current _ => store = some current
  | _ => True

/-- The lock keeps the others out. -/
structure Seated {I : Type} (w : TokenWorld Unit) (t : I → Seat) : Prop where
  mutex : Pool.Mutex (fun seat : Seat => seat.phase ≠ .outside) (w.locked ()) t
  backed : ∀ i, (t i).phase.Backed w.store

section
variable {I : Type} [DecidableEq I] {manager : OAuthManager} {w w' : TokenWorld Unit} {t : I → Seat}
  {i : I} {seat : Seat} {log : SessionLog I}

theorem Phase.Backed.load {stored : MemoryTokenStore.Stored} {phase : Phase} :
    (phase.load stored).Backed stored := by
  cases phase <;> cases stored <;> trivial

theorem Phase.Backed.answer {store : MemoryTokenStore.Stored} {phase : Phase}
    (h : phase.Backed store) (response : HTTPResponse) : (phase.answer response).Backed store := by
  cases phase <;> exact h

theorem Phase.load_outside (stored : MemoryTokenStore.Stored) (phase : Phase) :
    phase.load stored ≠ .outside ↔ phase ≠ .outside := by
  cases phase <;> cases stored <;> simp [Phase.load]

theorem Phase.answer_outside (response : HTTPResponse) (phase : Phase) :
    phase.answer response ≠ .outside ↔ phase ≠ .outside := by
  cases phase <;> simp [Phase.answer]

/-- The seat that is taken on does not move the others. -/
theorem Seated.of_backed (h : Seated w t)
    (hmutex : Pool.Mutex (fun seat : Seat => seat.phase ≠ .outside) (w'.locked ())
      (Function.update t i seat)) (hstore : w'.store = w.store) (hbacked : seat.phase.Backed w.store) :
    Seated w' (Function.update t i seat) := by
  refine ⟨hmutex, ?_⟩
  rw [Function.forall_update_iff t fun _ (seat : Seat) => seat.phase.Backed w'.store, hstore]
  exact ⟨hbacked, fun j _ => h.backed j⟩

omit [DecidableEq I] in
/-- A call that has an answer of the token endpoint finds its token stored, and is alone. -/
theorem Seated.swaps (h : Seated w t) {expected : Option PyStr} {replacement : OAuthToken}
    {swapped : Bool} {store : MemoryTokenStore.Stored}
    (hallowed : (managerWatch manager).allows (t i)
      (.compareAndSwapRefreshToken expected replacement))
    (hswap : MemoryTokenStore.compareAndSwapRefreshToken w.store expected replacement =
      (swapped, store)) :
    swapped = true ∧ store = some replacement ∧ ∀ j, j ≠ i → (t j).phase = .outside := by
  obtain ⟨current, sent, response, hphase, hsent, rfl, -⟩ := hallowed
  have hstore : w.store = some current := by
    have hbacked := h.backed i
    rwa [hphase] at hbacked
  have hequal : MemoryTokenStore.compareAndSwapRefreshToken w.store (some sent) replacement =
      (true, some replacement) := by
    simp [MemoryTokenStore.compareAndSwapRefreshToken, hstore, hsent]
  rw [hequal] at hswap
  cases hswap
  refine ⟨rfl, rfl, fun j hj => ?_⟩
  by_contra hinside
  exact hj (h.mutex.alone j i hinside (by rw [hphase]; simp))

theorem next_wire (manager : OAuthManager) (seat : Seat) (op : Op) (x : op.Answer) :
    ((sessionWatch manager).next seat ⟨.inr op, x⟩).phase = seat.phase ∧
      ((sessionWatch manager).next seat ⟨.inr op, x⟩).hand = seat.hand ∧
      (((sessionWatch manager).next seat ⟨.inr op, x⟩).renewed = true → seat.renewed = true) := by
  cases op with
  | send request =>
    cases x with
    | error exc => exact ⟨rfl, rfl, id⟩
    | ok response =>
      simp only [sessionWatch]
      split_ifs
      · exact ⟨rfl, rfl, by simp⟩
      · exact ⟨rfl, rfl, id⟩
  | _ => exact ⟨rfl, rfl, id⟩

theorem Seated.step (h : Seated w t) {op : TokenOp ⊕ Op} {x : Sum.elim TokenOp.Answer Op.Answer op}
    (hallowed : (sessionWatch manager).allows (t i) op) (hp : SessionPerforms i w op x w') :
    Seated w' (Function.update t i ((sessionWatch manager).next (t i) ⟨op, x⟩)) := by
  cases hp with
  | wire op x =>
    have hphase := (next_wire manager (t i) op x).1
    exact h.of_backed (h.mutex.keep (by rw [hphase])) rfl (by rw [hphase]; exact h.backed i)
  | token hp =>
    cases hp with
    | acquire hfree =>
      have hmutex := h.mutex
      rw [hfree] at hmutex
      have hinside : ((sessionWatch manager).next (t i) ⟨.inl .acquire, ()⟩).phase ≠ .outside := by
        simp [sessionWatch, managerWatch]
      exact h.of_backed (by simpa using hmutex.enter hinside) rfl trivial
    | release =>
      exact h.of_backed (by simpa using h.mutex.leave hallowed fun hinside => hinside rfl) rfl trivial
    | load stored hstored =>
      subst hstored
      exact h.of_backed (h.mutex.keep (Phase.load_outside _ _)) rfl Phase.Backed.load
    | save token => exact hallowed.elim
    | swap expected replacement swapped store hswap =>
      obtain ⟨rfl, rfl, halone⟩ := h.swaps hallowed hswap
      obtain ⟨current, _, response, hphase, -⟩ := hallowed
      refine ⟨h.mutex.keep (iff_of_true (by simp [sessionWatch, managerWatch]) (by simp [hphase])), ?_⟩
      rw [Function.forall_update_iff t fun _ (seat : Seat) => seat.phase.Backed (some replacement)]
      refine ⟨trivial, fun j hj => ?_⟩
      rw [halone j hj]
      trivial
    | send request answer =>
      cases answer with
      | error exc => exact h.of_backed (h.mutex.keep Iff.rfl) rfl (h.backed i)
      | ok response =>
        exact h.of_backed (h.mutex.keep (Phase.answer_outside _ _)) rfl ((h.backed i).answer _)
    | now time htime => exact h.of_backed (h.mutex.keep Iff.rfl) rfl (h.backed i)

omit [DecidableEq I] in
theorem Seated.drift {allowed : ℤ → ℤ → Prop} (h : Seated w t) (hdrift : Drifts allowed w w') :
    Seated w' t := by
  obtain ⟨clock, -, rfl⟩ := hdrift
  exact ⟨h.mutex, h.backed⟩

/-! ## Renewed tokens -/

/-- The token was granted for a request that was sent in the log. -/
def OAuthManager.GrantedIn (manager : OAuthManager) (log : SessionLog I) (token : OAuthToken) : Prop :=
  ∃ i sent response,
    some (i, ⟨.inl (.send (manager.refreshRequest sent)), .ok response⟩) ∈ log ∧
      manager.Grants sent response token

/-- What was answered was asked for in the log. -/
def Phase.AskedIn (manager : OAuthManager) (log : SessionLog I) : Phase → Prop
  | .answered current response => ∃ i sent, current.refreshToken = some sent ∧
      some (i, ⟨.inl (.send (manager.refreshRequest sent)), .ok response⟩) ∈ log
  | _ => True

/-- Behind a 401 of the call `i`: until that call has renewed the token, no more is known than that its
own answers were asked for since; then all that is stored and all that is under way was. -/
structure Renewing (manager : OAuthManager) (i : I) (log : SessionLog I) (w : TokenWorld Unit)
    (t : I → Seat) : Prop where
  seated : Seated w t
  own : (t i).phase.AskedIn manager log
  asked : (t i).renewed = true → ∀ j, (t j).phase.AskedIn manager log
  stored : (t i).renewed = true → ∃ token, w.store = some token ∧ manager.GrantedIn log token
  hand : (t i).renewed = true → ∀ token, (t i).hand = some token → manager.GrantedIn log token

omit [DecidableEq I] in
theorem OAuthManager.GrantedIn.append {token : OAuthToken} (h : manager.GrantedIn log token)
    (log' : SessionLog I) : manager.GrantedIn (log ++ log') token := by
  obtain ⟨i, sent, response, hmem, hgrants⟩ := h
  exact ⟨i, sent, response, List.mem_append_left _ hmem, hgrants⟩

omit [DecidableEq I] in
theorem Phase.AskedIn.append {phase : Phase} (h : phase.AskedIn manager log) (log' : SessionLog I) :
    phase.AskedIn manager (log ++ log') := by
  cases phase with
  | answered =>
    obtain ⟨i, sent, hsent, hmem⟩ := h
    exact ⟨i, sent, hsent, List.mem_append_left _ hmem⟩
  | _ => trivial

omit [DecidableEq I] in
theorem Phase.AskedIn.load {stored : MemoryTokenStore.Stored} {phase : Phase} :
    (phase.load stored).AskedIn manager log := by
  cases phase <;> cases stored <;> trivial

/-- A step that leaves the store as it is. -/
theorem Renewing.still {j : I} {tail : SessionLog I} (h : Renewing manager i log w t)
    (hseated : Seated w' (Function.update t j seat)) (hstore : w'.store = w.store)
    (hphase : (t j).phase.AskedIn manager log → seat.phase.AskedIn manager (log ++ tail))
    (hhand : ∀ token, seat.hand = some token → (t j).hand = some token ∨ w.store = some token)
    (hrenewed : seat.renewed = true → (t j).renewed = true) :
    Renewing manager i (log ++ tail) w' (Function.update t j seat) := by
  have hasked : ∀ k, (t k).phase.AskedIn manager log →
      (Function.update t j seat k).phase.AskedIn manager (log ++ tail) := by
    intro k hk
    by_cases hkj : k = j
    · subst hkj
      simpa using hphase hk
    · simpa [Function.update_of_ne hkj] using hk.append tail
  have hkept : (Function.update t j seat i).renewed = true → (t i).renewed = true := by
    by_cases hij : i = j
    · subst hij
      simpa using hrenewed
    · simp [Function.update_of_ne hij]
  refine ⟨hseated, hasked i h.own, fun hr k => hasked k (h.asked (hkept hr) k), fun hr => ?_,
    fun hr token htoken => ?_⟩
  · obtain ⟨token, hstored, hgranted⟩ := h.stored (hkept hr)
    exact ⟨token, hstore.trans hstored, hgranted.append tail⟩
  · have hfound : (t i).hand = some token ∨ w.store = some token := by
      by_cases hij : i = j
      · subst hij
        exact hhand token (by simpa using htoken)
      · exact .inl (by simpa [Function.update_of_ne hij] using htoken)
    obtain ⟨stored, hstored, hgranted⟩ := h.stored (hkept hr)
    rcases hfound with hfound | hfound
    · exact (h.hand (hkept hr) token hfound).append tail
    · obtain rfl := Option.some.inj (hstored.symm.trans hfound)
      exact hgranted.append tail

/-- A swap puts in a token that was asked for since, by this call or behind it. -/
theorem Renewing.swap {j : I} {tail : SessionLog I} (h : Renewing manager i log w t)
    {expected : Option PyStr} {replacement : OAuthToken} {store : MemoryTokenStore.Stored}
    {swapped : Bool}
    (hallowed : (managerWatch manager).allows (t j) (.compareAndSwapRefreshToken expected replacement))
    (hswap : MemoryTokenStore.compareAndSwapRefreshToken w.store expected replacement =
      (swapped, store))
    (hseated : Seated w' (Function.update t j ⟨.entered, some replacement, true⟩))
    (hstore : w'.store = store) :
    Renewing manager i (log ++ tail) w'
      (Function.update t j ⟨.entered, some replacement, true⟩) := by
  obtain ⟨-, rfl, halone⟩ := h.seated.swaps hallowed hswap
  obtain ⟨current, sent, response, hphase, hsent, -, hgrants⟩ := hallowed
  have hgranted : (t j).phase.AskedIn manager log →
      manager.GrantedIn (log ++ tail) replacement := by
    rw [hphase]
    rintro ⟨k, sent', hsent', hmem⟩
    obtain rfl := Option.some.inj (hsent.symm.trans hsent')
    exact OAuthManager.GrantedIn.append ⟨k, sent, response, hmem, hgrants⟩ tail
  have hquiet : ∀ k, (Function.update t j (⟨.entered, some replacement, true⟩ : Seat) k).phase.AskedIn
      manager (log ++ tail) := by
    intro k
    by_cases hkj : k = j
    · subst hkj
      simp [Phase.AskedIn]
    · rw [Function.update_of_ne hkj, halone k hkj]
      trivial
  have hthis : (Function.update t j (⟨.entered, some replacement, true⟩ : Seat) i).renewed = true →
      manager.GrantedIn (log ++ tail) replacement := by
    by_cases hij : i = j
    · subst hij
      exact fun _ => hgranted h.own
    · rw [Function.update_of_ne hij]
      exact fun hr => hgranted (h.asked hr j)
  refine ⟨hseated, hquiet i, fun _ => hquiet, fun hr => ⟨replacement, hstore, hthis hr⟩,
    fun hr token htoken => ?_⟩
  by_cases hij : i = j
  · subst hij
    obtain rfl : replacement = token := by simpa using htoken
    exact hthis hr
  · have hgiven := hr
    rw [Function.update_of_ne hij] at hgiven htoken
    exact (h.hand hgiven token htoken).append tail

omit [DecidableEq I] in
theorem Renewing.drift {allowed : ℤ → ℤ → Prop} {tail : SessionLog I}
    (h : Renewing manager i log w t) (hdrift : Drifts allowed w w') :
    Renewing manager i (log ++ tail) w' t := by
  have hseated := h.seated.drift hdrift
  obtain ⟨clock, -, rfl⟩ := hdrift
  refine ⟨hseated, h.own.append tail, fun hr j => (h.asked hr j).append tail, fun hr => ?_,
    fun hr token htoken => (h.hand hr token htoken).append tail⟩
  obtain ⟨token, hstored, hgranted⟩ := h.stored hr
  exact ⟨token, hstored, hgranted.append tail⟩

theorem Renewing.step {j : I} (h : Renewing manager i log w t) {op : TokenOp ⊕ Op}
    {x : Sum.elim TokenOp.Answer Op.Answer op} (hallowed : (sessionWatch manager).allows (t j) op)
    (hp : SessionPerforms j w op x w') :
    Renewing manager i (log ++ [some (j, ⟨op, x⟩)]) w'
      (Function.update t j ((sessionWatch manager).next (t j) ⟨op, x⟩)) := by
  have hseated := h.seated.step hallowed hp
  cases hp with
  | wire op x =>
    obtain ⟨hphase, hhand, hrenewed⟩ := next_wire manager (t j) op x
    refine h.still hseated rfl (fun hasked => ?_) (fun token htoken => ?_) hrenewed
    · rw [hphase]
      exact hasked.append _
    · rw [hhand] at htoken
      exact .inl htoken
  | token hp =>
    cases hp with
    | acquire hfree =>
      exact h.still hseated rfl (fun _ => trivial) (fun _ => .inl) id
    | release => exact h.still hseated rfl (fun _ => trivial) (fun _ => .inl) id
    | load stored hstored =>
      subst hstored
      exact h.still hseated rfl (fun _ => Phase.AskedIn.load) (fun _ => .inr) id
    | save token => exact hallowed.elim
    | swap expected replacement swapped store hswap =>
      obtain ⟨rfl, -⟩ := h.seated.swaps hallowed hswap
      exact h.swap hallowed hswap hseated rfl
    | send request answer =>
      cases answer with
      | error exc => exact h.still hseated rfl (fun hasked => hasked.append _) (fun _ => .inl) id
      | ok response =>
        refine h.still hseated rfl (fun _ => ?_) (fun _ => .inl) id
        obtain ⟨current, sent, hphase, hsent, rfl⟩ := hallowed
        simp only [sessionWatch, managerWatch, hphase, Phase.answer]
        exact ⟨j, sent, hsent, List.mem_append_right _ List.mem_cons_self⟩
    | now time htime =>
      exact h.still hseated rfl (fun hasked => hasked.append _) (fun _ => .inl) id

end

/-! ## Behind a 401 -/

section
variable {I : Type} [DecidableEq I] {manager : OAuthManager} {clients : I → TradeStationClient}
  {calls : I → PublicCall} {allowed : ℤ → ℤ → Prop} {s s' : SessionPool I}

/-- Each of these is a call of a client over the manager. -/
def AreCalls (manager : OAuthManager) (clients : I → TradeStationClient) (calls : I → PublicCall)
    (s : SessionPool I) : Prop :=
  ∀ i, ∃ (α : Type) (p : Program α), (calls i).conduct (clients i) = .coroutine p ∧
    s.task i = manager.session p

/-- The seat of a call that has not begun. -/
def Seat.start : Seat := ⟨.outside, none, true⟩

omit [DecidableEq I] in
theorem AreCalls.keeps (h : AreCalls manager clients calls s) (i : I) :
    (s.task i).Keeps (sessionWatch manager) Seat.start fun _ _ => True := by
  obtain ⟨α, p, hp, htask⟩ := h i
  have hclosing := closing_conduct manager (clients i) (calls i)
  rw [hp] at hclosing
  rw [htask]
  exact (hclosing Seat.start ⟨rfl, rfl⟩).bind (fun _ _ _ => trivial) fun _ _ _ => trivial

theorem seated_of_path {log : SessionLog I} (hfree : s.shared.locked () = false)
    (hcalls : AreCalls manager clients calls s) (hrun : Path (SessionStep allowed) s log s') :
    Seated s'.shared (Pool.watched (sessionWatch manager) (fun _ => Seat.start) log) := by
  have hstart : Seated s.shared fun _ : I => Seat.start := by
    refine ⟨⟨?_, fun i j hi => absurd rfl hi⟩, fun _ => trivial⟩
    simp [hfree, Seat.start]
  exact Pool.watch_invariant (J := fun _ w t => Seated w t) hrun hcalls.keeps
    (fun hallowed hp h => h.step hallowed hp) (fun hdrift h => h.drift hdrift) [] hstart

/-- **Behind a 401 nothing is sent but with a token that was asked for since.** Whatever the other
calls over the manager do meanwhile, what a call sends after its request was answered by 401 carries a
token that the token endpoint has granted for a refresh sent behind that answer. -/
theorem rejected_renewed {before between after : SessionLog I} {i : I}
    {request request' : HTTPRequest} {response : HTTPResponse} {answer : Except Exc HTTPResponse}
    (hfree : s.shared.locked () = false) (hcalls : AreCalls manager clients calls s)
    (hrun : Path (SessionStep allowed) s
      (before ++ some (i, ⟨.inr (.send request), .ok response⟩) ::
        (between ++ some (i, ⟨.inr (.send request'), answer⟩) :: after)) s')
    (h401 : response.statusCode = 401) :
    ∃ token, request'.Bears token ∧ manager.GrantedIn between token := by
  obtain ⟨mid₁, hbefore, hrest⟩ := path_append.1 hrun
  obtain ⟨mid₂, hrejected, hrest⟩ := path_cons.1 hrest
  obtain ⟨mid₃, hbetween, hrest⟩ := path_append.1 hrest
  obtain ⟨mid₄, hresent, -⟩ := path_cons.1 hrest
  have hto := hbefore.append (.single hrejected)
  have hkeeps := Pool.keeps_of_path hto hcalls.keeps
  have hseated := seated_of_path hfree hcalls hto
  -- at the 401 the call is outside the lock, and its token counts as rejected
  obtain ⟨houtside, -⟩ := hrejected.allowed (Pool.keeps_of_path hbefore hcalls.keeps i)
  have hseat : (Pool.watched (sessionWatch manager) (fun _ => Seat.start)
        (before ++ [some (i, ⟨.inr (.send request), .ok response⟩)]) i).phase = .outside ∧
      (Pool.watched (sessionWatch manager) (fun _ => Seat.start)
        (before ++ [some (i, ⟨.inr (.send request), .ok response⟩)]) i).renewed = false := by
    rw [Pool.watched_append, Pool.watched_perform, Pool.watched_nil, Function.update_self]
    simpa [sessionWatch, h401] using houtside
  generalize Pool.watched (sessionWatch manager) (fun _ => Seat.start)
    (before ++ [some (i, ⟨.inr (.send request), .ok response⟩)]) = t at hkeeps hseated hseat
  have hstart : Renewing manager i [] mid₂.shared t := by
    refine ⟨hseated, ?_, ?_, ?_, ?_⟩
    · rw [hseat.1]
      trivial
    all_goals
      intro hr
      rw [hseat.2] at hr
      cases hr
  have hrenewing := Pool.watch_invariant (J := Renewing manager i) hbetween hkeeps
    (fun hallowed hp h => Renewing.step h hallowed hp) (fun hdrift h => h.drift hdrift) [] hstart
  obtain ⟨-, hrenewed, token, hhand, hbears⟩ :=
    hresent.allowed (Pool.keeps_of_path hbetween hkeeps i)
  exact ⟨token, hbears, hrenewing.hand hrenewed token hhand⟩

end

/-! ## One rejected request -/

/-- It does not expire soon at time zero. -/
def staleToken : OAuthToken := { newToken with accessToken := str "a" }

/-- A call that asks for the routes. -/
def routing : SessionPool Unit where
  shared := ⟨some staleToken, 0, fun _ => false⟩
  task _ := simManager.session simTradeClient.getRoutes

/-- The request for the routes. -/
def routesRequest (token : PyStr) : HTTPRequest :=
  simTradeClient.rest.request
    { method := str "GET", path := str "/orderexecution/routes", retrySafe := true } token

/-- The answer to a token that has been revoked. -/
def unauthorized : HTTPResponse := ⟨401, [], []⟩

/-- The call, as the client sees it. -/
def rejectedOnce : Trace Op Op.Answer :=
  [⟨.provider .getAccessToken, .ok (str "a")⟩, ⟨.send (routesRequest (str "a")), .ok unauthorized⟩,
    ⟨.provider .forceRefreshAccessToken, .ok (str "b")⟩, ⟨.provider .getAccessToken, .ok (str "b")⟩,
    ⟨.send (routesRequest (str "b")), .error .overflow⟩]

theorem runs_rejectedOnce :
    Coro.Runs simTradeClient.getRoutes rejectedOnce (.error .overflow) := by
  have hscope : simTradeClient.requireScope tradeScope = .ok () := rfl
  have hagain : Coro.Runs (simTradeClient.rest.requestLoop
      { method := str "GET", path := str "/orderexecution/routes", retrySafe := true } 1 true)
      [⟨.provider .getAccessToken, .ok (str "b")⟩,
        ⟨.send (routesRequest (str "b")), .error .overflow⟩] (.error .overflow) := by
    rw [RestClient.requestLoop, Program.getAccessToken, Program.runs_provider]
    refine .inr ⟨_, _, rfl, ?_⟩
    rw [Program.runs_send]
    exact ⟨_, _, rfl, rfl, rfl⟩
  unfold TradeStationClient.getRoutes
  simp only [hscope, Coro.ofExcept_ok, Coro.ret_bind]
  rw [RestClient.get, RestClient.requestJson, RestClient.requestLoop, Program.getAccessToken,
    Program.runs_provider]
  refine .inr ⟨_, _, rfl, ?_⟩
  rw [Program.runs_send]
  exact ⟨_, _, rfl, _, _, rfl, hagain⟩

/-- The load and the look of a call of `get_access_token`. -/
def lookedAt (token : OAuthToken) : Trace (TokenOp ⊕ Op) (Sum.elim TokenOp.Answer Op.Answer) :=
  [⟨.inl .load, some token⟩, ⟨.inl .now, .utc 0⟩]

/-- A forced refresh. -/
def refreshedOnce : Trace (TokenOp ⊕ Op) (Sum.elim TokenOp.Answer Op.Answer) :=
  [⟨.inl .acquire, ()⟩, ⟨.inl .load, some staleToken⟩,
    ⟨.inl (.send (simManager.refreshRequest (str "r"))), .ok grant⟩, ⟨.inl .now, .utc 0⟩,
    ⟨.inl (.compareAndSwapRefreshToken (some (str "r")) newToken), true⟩, ⟨.inl .release, ()⟩]

/-- What is sent first, and how it is answered. -/
def rejection : Event (TokenOp ⊕ Op) (Sum.elim TokenOp.Answer Op.Answer) :=
  ⟨.inr (.send (routesRequest (str "a"))), .ok unauthorized⟩

/-- What is sent again. -/
def resending : Event (TokenOp ⊕ Op) (Sum.elim TokenOp.Answer Op.Answer) :=
  ⟨.inr (.send (routesRequest (str "b"))), .error .overflow⟩

theorem runs_lookedAt {token : OAuthToken} (hsoon : token.expiresSoon (.utc 0) = .ok false) :
    Coro.Runs (simManager.serves (.provider .getAccessToken)) (lookedAt token)
      (.ok (.ok token.accessToken)) := by
  have hget : Coro.Runs (Coro.inl simManager.getAccessToken : Session PyStr) (lookedAt token)
      (.ok token.accessToken) := by
    refine ⟨_, _, rfl, _, _, rfl, ?_⟩
    show Coro.Runs (Coro.inl (Coro.ofExcept (token.expiresSoon (.utc 0)) >>= _)) _ _
    rw [hsoon]
    exact ⟨rfl, rfl⟩
  exact Coro.runs_caught.2 ⟨_, rfl, hget⟩

theorem linked_rejectedOnce : Coro.Linked simManager.serves rejectedOnce
    (lookedAt staleToken ++ (rejection :: (refreshedOnce ++ (lookedAt newToken ++ [resending])))) := by
  have hrefresh : Coro.Runs (simManager.serves (.provider .forceRefreshAccessToken)) refreshedOnce
      (.ok (.ok (str "b"))) :=
    ⟨_, _, rfl, _, _, rfl, _, _, rfl, _, _, rfl, _, _, rfl, _, _, rfl, rfl, rfl⟩
  have hrejected : Coro.Runs (simManager.serves (.send (routesRequest (str "a")))) [rejection]
      (.ok (.ok unauthorized)) :=
    ⟨_, _, rfl, rfl, rfl⟩
  have hresent : Coro.Runs (simManager.serves (.send (routesRequest (str "b")))) [resending]
      (.ok (.error .overflow)) :=
    ⟨_, _, rfl, rfl, rfl⟩
  exact .next (runs_lookedAt rfl) (.next hrejected (.next hrefresh (.next (runs_lookedAt rfl)
    (.next hresent .nil))))

theorem rejected_renewed_routes : ∃ token, (routesRequest (str "b")).Bears token ∧
    simManager.GrantedIn ((refreshedOnce ++ lookedAt newToken).map fun event => some ((), event))
      token := by
  have hrun : Coro.Runs (routing.task ()) (lookedAt staleToken ++
      (rejection :: (refreshedOnce ++ (lookedAt newToken ++ [resending])))) (.error .overflow) :=
    Coro.runs_bind.2 (.inl ⟨_, runs_rejectedOnce.link linked_rejectedOnce, rfl⟩)
  have hworld : ∃ w, Path (fun w (event : Event (TokenOp ⊕ Op) (Sum.elim TokenOp.Answer Op.Answer)) w' =>
      SessionPerforms () w event.op event.answer w') routing.shared (lookedAt staleToken ++
      (rejection :: (refreshedOnce ++ (lookedAt newToken ++ [resending])))) w := by
    apply Exists.intro
    apply Path.cons (SessionPerforms.token (.load _ rfl))
    apply Path.cons (SessionPerforms.token (.now _ rfl))
    apply Path.cons (SessionPerforms.wire _ _)
    apply Path.cons (SessionPerforms.token (.acquire rfl))
    apply Path.cons (SessionPerforms.token (.load _ rfl))
    apply Path.cons (SessionPerforms.token (.send _ _))
    apply Path.cons (SessionPerforms.token (.now _ rfl))
    apply Path.cons (SessionPerforms.token (.swap _ _ true _ rfl))
    apply Path.cons (SessionPerforms.token .release)
    apply Path.cons (SessionPerforms.token (.load _ rfl))
    apply Path.cons (SessionPerforms.token (.now _ rfl))
    exact Path.single (SessionPerforms.wire _ _)
  obtain ⟨w, hworld⟩ := hworld
  have hpath : ∃ q : Session Unit, q.Ended (.error .overflow) ∧
      Path (SessionStep fun _ _ => True) routing
        ((lookedAt staleToken).map (fun event => some ((), event)) ++ some ((), rejection) ::
          ((refreshedOnce ++ lookedAt newToken).map (fun event => some ((), event)) ++
            [some ((), resending)]))
        ⟨w, Function.update routing.task () q⟩ :=
    Pool.path_of_runs hrun hworld
  obtain ⟨q, -, hpath⟩ := hpath
  have hcalls : AreCalls simManager (fun _ => simTradeClient) (fun _ => .getRoutes) routing :=
    fun _ => ⟨_, _, rfl, rfl⟩
  exact rejected_renewed rfl hcalls hpath rfl

end TradeStation
