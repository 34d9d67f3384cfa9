import TradeStation.Rest.Client

/-!
# What a request performs

`request_json` sends nothing but the request of its call, each time with the token it was last
given, and beside that it asks the token provider, sleeps, and reads the clock and a random number.
What it returns is the object of a successful response to such a request.
-/

namespace TradeStation

open Python Foundations

/-- What `request_json` performs for a call. -/
inductive Op.OfCall (client : RestClient) (call : Call) : Op → Prop
  | provider (method : ProviderMethod) : OfCall client call (.provider method)
  | send (token : PyStr) : OfCall client call (.send (client.request call token))
  | sleep (delaySeconds : ℚ) : OfCall client call (.sleep delaySeconds)
  | uniform (low high : ℚ) : OfCall client call (.uniform low high)
  | now : OfCall client call .now

/-! ## Delays and errors -/

section
variable {P : Op → Prop} (hnow : P .now)
include hnow

theorem only_parseRetryAfterSeconds (lib : Library) (value : Option PyStr) :
    Coro.Only P (parseRetryAfterSeconds lib Program.now value) := by
  unfold parseRetryAfterSeconds
  split
  · trivial
  · split
    · trivial
    · trivial
    · split
      · trivial
      · trivial
      · exact (Coro.only_ask hnow).bind fun _ => trivial

theorem only_apiError (lib : Library) (response : HTTPResponse) :
    Coro.Only P (Program.apiError lib response) := by
  refine Coro.Only.bind ?_ fun error => Coro.only_ofExcept _ error
  unfold TradeStation.apiError
  simp only
  split_ifs
  · trivial
  · exact (only_parseRetryAfterSeconds hnow lib _).bind fun _ => trivial
  · trivial

theorem only_sleep (huniform : ∀ low high, P (.uniform low high)) (hsleep : ∀ delay, P (.sleep delay))
    (client : RestClient) (attempt : ℕ) (retryAfter : Option PyStr) :
    Coro.Only P (client.sleep attempt retryAfter) := by
  have hdelay : Coro.Only P (client.retryPolicy.delayForAttempt client.lib Program.now
      Program.uniform attempt retryAfter) := by
    refine (only_parseRetryAfterSeconds hnow client.lib retryAfter).bind fun parsed => ?_
    split
    · trivial
    · trivial
    · split
      · trivial
      · split
        · trivial
        · exact (Coro.only_ask (huniform _ _)).bind fun _ => trivial
  refine hdelay.bind fun delay => ?_
  split
  · trivial
  · exact (Coro.only_ask (hsleep _)).bind fun answer => Coro.only_ofExcept _ answer

end

/-! ## What a call sends -/

section
variable (client : RestClient) (call : Call)

theorem only_provider (method : ProviderMethod) :
    Coro.Only (Op.OfCall client call) (Program.provider method) :=
  (Coro.only_ask (.provider method)).bind fun answer => Coro.only_ofExcept _ answer

/-- **A request sends nothing but the request of its call.** -/
theorem only_requestLoop (attempt : ℕ) (refreshedAfter401 : Bool) :
    Coro.Only (Op.OfCall client call) (client.requestLoop call attempt refreshedAfter401) := by
  have hraise : ∀ (response : HTTPResponse) (wrap : Exc → Exc),
      Coro.Only (Op.OfCall client call) (do
        throw (wrap (← Program.apiError client.lib response)) : Program Json.Dict) :=
    fun response wrap => (only_apiError .now client.lib response).bind fun _ => trivial
  have hsleep : ∀ (attempt : ℕ) (retryAfter : Option PyStr),
      Coro.Only (Op.OfCall client call) (client.sleep attempt retryAfter) :=
    only_sleep .now .uniform .sleep client
  rw [RestClient.requestLoop]
  refine (only_provider client call .getAccessToken).bind fun token => ?_
  refine (Coro.only_ask (.send token)).bind fun answer => ?_
  split
  · split_ifs
    · trivial
    · trivial
    · trivial
    · exact (hsleep _ _).bind fun _ => only_requestLoop _ _
  · split_ifs with h401
    · exact (only_provider client call .forceRefreshAccessToken).bind fun _ =>
        only_requestLoop attempt true
    · exact Coro.only_ofExcept _ _
    · exact hraise _ _
    · exact (hsleep _ _).bind fun _ => only_requestLoop _ _
    · exact hraise _ id
termination_by
  ((client.retryPolicy.maxAttempts - attempt).toNat, if refreshedAfter401 then 0 else 1)
decreasing_by
  · exact Prod.Lex.left _ _ (by omega)
  · rw [h401.2]
    exact Prod.Lex.right _ (by simp)
  · exact Prod.Lex.left _ _ (by omega)

theorem only_requestJson : Coro.Only (Op.OfCall client call) (client.requestJson call) :=
  only_requestLoop client call 1 false

variable {client call} in
theorem decode_ok {response : HTTPResponse} {decoded : Json.Dict}
    (h : RestClient.decode call response = .ok decoded) : response.json = some (.obj decoded) := by
  unfold RestClient.decode at h
  split at h
  · cases h
  · next hjson =>
    cases h
    exact hjson
  · cases h

/-- An object that was returned came in a successful response to the request of the call. -/
def Answered (tr : Trace Op Op.Answer) (decoded : Json.Dict) : Prop :=
  ∃ token response, ⟨.send (client.request call token), .ok response⟩ ∈ tr ∧
    isSuccess response = true ∧ response.json = some (.obj decoded)

variable {client call} in
/-- **What a request returns was answered to it.** -/
theorem answered_of_runs {attempt : ℕ} {refreshedAfter401 : Bool} {tr : Trace Op Op.Answer}
    {decoded : Json.Dict}
    (h : Coro.Runs (client.requestLoop call attempt refreshedAfter401) tr (.ok decoded)) :
    Answered client call tr decoded := by
  -- the induction is on the length of the trace, which every turn of the loop uses some of
  induction hn : tr.length using Nat.strong_induction_on
    generalizing tr attempt refreshedAfter401 with
  | _ n ih =>
  subst hn
  have hraise : ∀ {response : HTTPResponse} (wrap : Exc → Exc) {tail : Trace Op Op.Answer},
      ¬Coro.Runs (Program.apiError client.lib response >>= fun error =>
        (throw (wrap error) : Program Json.Dict)) tail (.ok decoded) := by
    intro response wrap tail hthrow
    obtain ⟨error, tr₁, tr₂, rfl, -, -, hr⟩ := Coro.runs_bind_ok.1 hthrow
    cases hr
  rw [RestClient.requestLoop] at h
  obtain ⟨token, before, rest, rfl, hbefore, hsend⟩ := Coro.runs_bind_ok.1 h
  obtain ⟨answer, tail, rfl, hturn⟩ := Program.runs_send.1 hsend
  clear h hsend
  have hnext : ∀ {β : Type} {p : Program β} {attempt' : ℕ} {refreshed' : Bool},
      Coro.Runs (p >>= fun _ => client.requestLoop call attempt' refreshed') tail (.ok decoded) →
      Answered client call (before ++ ⟨.send (client.request call token), answer⟩ :: tail)
        decoded := by
    intro β p attempt' refreshed' hretry
    obtain ⟨_, gap, rest, rfl, -, hrest⟩ := Coro.runs_bind_ok.1 hretry
    have hlt : rest.length <
        (before ++ ⟨.send (client.request call token), answer⟩ :: (gap ++ rest)).length := by
      simp only [List.length_append, List.length_cons]
      omega
    obtain ⟨token', response, hmem, hsuccess⟩ := ih rest.length hlt hrest rfl
    exact ⟨token', response, by simp [hmem], hsuccess⟩
  cases answer with
  | error exc =>
    simp only at hturn
    split_ifs at hturn
    · cases hturn.2
    · cases hturn.2
    · cases hturn.2
    · exact hnext hturn
  | ok response =>
    simp only at hturn
    split_ifs at hturn with h401 hsuccess
    · exact hnext hturn
    · exact ⟨token, response, by simp, hsuccess, decode_ok (Coro.runs_ofExcept.1 hturn).2.symm⟩
    · exact (hraise _ hturn).elim
    · exact hnext hturn
    · exact (hraise id hturn).elim

end

/-! ## What neither asks for a token nor sends -/

/-- The operation asks for no token and sends nothing. -/
def Op.Quiet : Op → Prop
  | .provider _ | .send _ => False
  | _ => True

theorem quiet_apiError (lib : Library) (response : HTTPResponse) :
    Coro.Only Op.Quiet (Program.apiError lib response) :=
  only_apiError trivial lib response

theorem quiet_sleep (client : RestClient) (attempt : ℕ) (retryAfter : Option PyStr) :
    Coro.Only Op.Quiet (client.sleep attempt retryAfter) :=
  only_sleep trivial (fun _ _ => trivial) (fun _ => trivial) client attempt retryAfter

end TradeStation
