import TradeStation.Contract

/-!
# What a configuration grants

The scopes that were asked for when the user logged in are those of the configuration. Every endpoint
belongs to one scope, and the methods of the client do not reach beyond the scopes of theirs.

* `demands`: a method whose endpoints are not all granted raises, and contacts nobody.
* `requests_granted`: so every request that is sent is granted by the values that the configuration was
  loaded from, and goes to the host of their environment.
-/

namespace TradeStation

open Python Foundations TradeStation.Stream

/-! ## Scopes -/

/-- The scope that an endpoint belongs to. -/
def Endpoint.scope : Endpoint → PyStr
  | .literal .brokerage :: _ => readAccountScope
  | .literal .orderexecution :: _ => tradeScope
  | .literal .marketdata :: .literal .options :: .literal .riskreward :: _ => optionSpreadsScope
  | .literal .marketdata :: .literal .stream :: .literal .marketdepth :: _ => matrixScope
  | _ => marketDataScope

/-- The scope is among those that the values ask for, or that are asked for by default. -/
def RawConfig.Grants (raw : RawConfig) (scope : PyStr) : Prop :=
  match raw.requestedScopes with
  | none => scope ∈ defaultScopes
  | some value => ∃ text ∈ value, strip text = scope

/-- A trimmed scope is granted if it is left by `require_refresh_scopes`. -/
theorem RawConfig.grants_iff (raw : RawConfig) {scope : PyStr} (hne : scope ≠ []) :
    raw.Grants scope ↔ scope ∈ raw.scopes := by
  unfold RawConfig.Grants RawConfig.scopes
  cases raw.requestedScopes with
  | none => exact Iff.rfl
  | some value =>
    rw [Option.map_some, Option.getD_some, mem_sortedScopes, cleaned, List.mem_filter, List.mem_map,
      and_iff_left (decide_eq_true hne)]

theorem Endpoint.scope_ne_nil (endpoint : Endpoint) : endpoint.scope ≠ [] := by
  unfold Endpoint.scope
  split <;> decide

/-! ## Methods without their scope -/

/-- Whatever happens, the method raises and contacts nobody. -/
def Conduct.Refuses (client : TradeStationClient) (conduct : Conduct) : Prop :=
  ∀ log r, conduct.Performs client log r → log = [] ∧ ∃ exc, r = .error exc

section
variable {client : TradeStationClient} {scope : PyStr}

theorem requireScope_missing (h : scope ∉ client.config.requestedScopes) :
    ∃ exc, client.requireScope scope = .error exc := by
  unfold TradeStationClient.requireScope TradeStationConfig.assertScopeRequested
  rw [if_neg h]
  exact ⟨_, rfl⟩

/-- The scope is checked before anything is awaited. -/
theorem runs_missing {α : Type} {f : Unit → Program α} (h : scope ∉ client.config.requestedScopes)
    {tr : Trace Op Op.Answer} {r : Except Exc α}
    (hrun : Coro.Runs (Coro.ofExcept (client.requireScope scope) >>= f) tr r) :
    tr = [] ∧ ∃ exc, r = .error exc := by
  obtain ⟨exc, hexc⟩ := requireScope_missing h
  rw [hexc] at hrun
  exact ⟨hrun.1, exc, hrun.2⟩

theorem refuses_of_runs {α : Type} {p : Program α}
    (h : ∀ tr r, Coro.Runs p tr r → tr = [] ∧ ∃ exc, r = .error exc) :
    (Conduct.coroutine p).Refuses client := by
  rintro log r ⟨tr, r', hrun, rfl, rfl⟩
  obtain ⟨rfl, exc, rfl⟩ := h tr r' hrun
  exact ⟨rfl, exc, rfl⟩

theorem refuses_coroutine {α : Type} {f : Unit → Program α}
    (h : scope ∉ client.config.requestedScopes) :
    (Conduct.coroutine (Coro.ofExcept (client.requireScope scope) >>= f)).Refuses client :=
  refuses_of_runs fun _ _ => runs_missing h

/-- The scope is checked behind another one. -/
theorem refuses_second {α : Type} {first : PyStr} {f : Unit → Unit → Program α}
    (h : scope ∉ client.config.requestedScopes) :
    (Conduct.coroutine (Coro.ofExcept (client.requireScope first) >>= fun u =>
      Coro.ofExcept (client.requireScope scope) >>= f u)).Refuses client := by
  refine refuses_of_runs fun tr r hrun => ?_
  cases hfirst : client.requireScope first with
  | error exc =>
    rw [hfirst] at hrun
    exact ⟨hrun.1, exc, hrun.2⟩
  | ok u =>
    rw [hfirst] at hrun
    exact runs_missing h hrun

theorem refuses_stream {f : Unit → Except Exc EventIterator}
    (h : scope ∉ client.config.requestedScopes) :
    (Conduct.stream (client.requireScope scope >>= f)).Refuses client := by
  obtain ⟨exc, hexc⟩ := requireScope_missing h
  rw [hexc]
  rintro log r ⟨rfl, rfl⟩
  exact ⟨rfl, exc, rfl⟩

/-- Each of the reads that are gathered checks the scope. -/
theorem refuses_snapshot {accountIds : List PyStr}
    (h : readAccountScope ∉ client.config.requestedScopes) :
    (Conduct.snapshot accountIds).Refuses client := by
  rintro log r ⟨tr, r', hfetches, rfl, rfl⟩
  unfold TradeStationClient.FetchesStateSnapshot at hfetches
  cases hpath : client.accountPath accountIds with
  | error exc =>
    rw [hpath] at hfetches
    obtain ⟨rfl, rfl⟩ := hfetches
    exact ⟨rfl, exc, rfl⟩
  | ok path =>
    rw [hpath] at hfetches
    obtain ⟨r', hgather, rfl⟩ := hfetches
    obtain ⟨rfl, exc, rfl⟩ := hgather.raised (fun _ _ => runs_missing h) fun _ _ hrest =>
      hrest.raised (fun _ _ => runs_missing h) fun _ _ hrest =>
        hrest.raised (fun _ _ => runs_missing h) fun _ _ => runs_missing h
    exact ⟨rfl, exc, rfl⟩

end

/-- **A method demands the scopes of its endpoints**: where one is missing, it raises and contacts
nobody. -/
theorem demands (client : TradeStationClient) (call : PublicCall) {endpoint : Endpoint}
    (hendpoint : endpoint ∈ call.endpoints)
    (hmissing : endpoint.scope ∉ client.config.requestedScopes) :
    (call.conduct client).Refuses client := by
  cases call with
  | fetchStateSnapshot =>
    have hscope : endpoint.scope = readAccountScope := by
      simp only [PublicCall.endpoints, List.mem_cons, List.not_mem_nil, or_false] at hendpoint
      rcases hendpoint with rfl | rfl | rfl | rfl <;> rfl
    rw [hscope] at hmissing
    exact refuses_snapshot hmissing
  | replaceOrder | cancelOrder =>
    simp only [PublicCall.endpoints, List.mem_cons, List.not_mem_nil, or_false] at hendpoint
    rcases hendpoint with rfl | rfl
    · exact refuses_second hmissing
    · exact refuses_coroutine hmissing
  | streamOrders | streamOrdersById | streamPositions | streamQuotes | streamBars
  | streamMarketDepthAggregates | streamMarketDepthQuotes | streamOptionChain | streamOptionQuotes =>
    obtain rfl := List.mem_singleton.1 hendpoint
    exact refuses_stream hmissing
  | orderPayloadHash | aclose => cases hendpoint
  | _ =>
    obtain rfl := List.mem_singleton.1 hendpoint
    exact refuses_coroutine hmissing

/-! ## Every request -/

/-- A request is granted by the values that a configuration was loaded from: it is for an endpoint of
its call whose scope they ask for, and goes to the host of their environment. That is the live one only
if they enable live trading and acknowledge it. -/
structure GrantedBy (raw : RawConfig) (config : TradeStationConfig) (call : PublicCall)
    (request : HTTPRequest) : Prop where
  endpoint : ∃ endpoint ∈ call.endpoints, Addresses config endpoint request.url ∧
    raw.Grants endpoint.scope
  host : ∀ keep, authorityOf (normalise keep request.url) = raw.environment.origin
  live : raw.environment = .live →
    raw.liveTradingEnabled = true ∧ raw.liveAcknowledgement = some liveAcknowledgementText

/-- **No request goes beyond what the configuration grants.** Whatever values a configuration is loaded
from, whatever method of a client with it is called, and however the parties answer: each request that is
sent is granted by these values, and a call with an endpoint whose scope they do not ask for raises and
contacts neither the token provider nor the transport. -/
theorem requests_granted {raw : RawConfig} {config : LoadedConfig} (hload : raw.validate = .ok config)
    (client : TradeStationClient) (hclient : client.config = config.toTradeStationConfig)
    (call : PublicCall) {log : List Contact} {r : Except Exc Unit}
    (h : (call.conduct client).Performs client log r) :
    (∀ request, .sent request ∈ log → GrantedBy raw client.config call request) ∧
      ((∃ endpoint ∈ call.endpoints, ¬raw.Grants endpoint.scope) → log = [] ∧ ∃ exc, r = .error exc) := by
  have hdump := RawConfig.validate_ok.1 hload
  have hgrants : ∀ endpoint : Endpoint,
      raw.Grants endpoint.scope ↔ endpoint.scope ∈ client.config.requestedScopes := by
    intro endpoint
    have hscopes : config.requestedScopes = raw.scopes :=
      Option.some.inj (congrArg RawConfig.requestedScopes hdump)
    rw [raw.grants_iff endpoint.scope_ne_nil, hclient, hscopes]
  have henvironment : client.config.environment = raw.environment := by
    rw [hclient]
    exact congrArg RawConfig.environment hdump
  refine ⟨fun request hrequest => ?_, fun ⟨endpoint, hendpoint, hmissing⟩ => ?_⟩
  · obtain ⟨endpoint, hendpoint, haddresses⟩ := addresses_of_performs h hrequest
    refine ⟨⟨endpoint, hendpoint, haddresses, ?_⟩, fun keep => ?_, fun hlive => ?_⟩
    · by_contra hmissing
      rw [hgrants] at hmissing
      obtain ⟨rfl, -⟩ := demands client call hendpoint hmissing log r h
      cases hrequest
    · rw [authorityOf_addressed haddresses keep, henvironment]
    · rw [← henvironment, hclient] at hlive
      have henabled := config.live_enabled hlive
      rwa [show config.liveTradingEnabled = raw.liveTradingEnabled from
          congrArg RawConfig.liveTradingEnabled hdump,
        show config.liveAcknowledgement = raw.liveAcknowledgement from
          congrArg RawConfig.liveAcknowledgement hdump] at henabled
  · rw [hgrants] at hmissing
    exact demands client call hendpoint hmissing log r h

theorem requests_granted_balances :
    let request := simTradeClient.rest.request
      { method := str "GET", path := str "/brokerage/accounts/SIM1/balances", retrySafe := true }
      (str "T")
    GrantedBy simRaw simConfig (.getBalances [str "SIM1"]) request :=
  (requests_granted validate_simRaw simTradeClient rfl (.getBalances [str "SIM1"])
    performs_balances).1 _ (List.mem_cons_of_mem _ List.mem_cons_self)

end TradeStation
