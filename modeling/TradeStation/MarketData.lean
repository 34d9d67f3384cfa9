import TradeStation.ChartQueries
import TradeStation.Slots

/-!
# What a request asks for

* `asks_conduct`, `asked_of_performs`: a request carries the parameters of its call, and those only.
* `chartQuery_understood`: so what a caller asks of a chart or an option chain is what is understood.
-/

namespace TradeStation

open Python Foundations

/-! ## Requests -/

/-- The parameters of the one query of a call, where it has one. -/
def PublicCall.queryParams : PublicCall → Option QueryParams
  | getOptionExpirations _ strikePrice => some [(str "strikePrice", strikePrice.map .decimal)]
  | getOptionStrikes _ spreadType strikeInterval expiration expiration2 =>
    some [(str "spreadType", spreadType.map .text), (str "strikeInterval", strikeInterval.map .int),
      (str "expiration", expiration), (str "expiration2", expiration2)]
  | getBars _ params | streamBars _ params _ | streamOptionChain _ params _ => some params
  | streamMarketDepthAggregates _ maxLevels _ | streamMarketDepthQuotes _ maxLevels _ =>
    some [(str "maxlevels", maxLevels.map .int)]
  | streamOptionQuotes legs riskFreeRate enableGreeks _ =>
    some ((str "riskFreeRate", riskFreeRate.map .decimal) ::
      (str "enableGreeks", enableGreeks.map .bool) :: legParams legs)
  | _ => none

/-- A request that asks for some pairs. -/
def Op.Asks (pairs : List (PyStr × PyStr)) : Op → Prop
  | .send request => askedOf request.url = pairs
  | _ => True

section
variable {client : TradeStationClient} {params : QueryParams}

theorem notMem_baseUrl (config : TradeStationConfig) : 0x3f ∉ config.baseUrl := by
  rw [baseUrl_eq]
  cases config.environment with
  | sim => decide
  | live => decide

/-- The query of a URL is what `_query_string` has written. -/
theorem askedOf_url {front query : PyStr}
    (htexts : ∀ p ∈ present client.lib params, IsText p.1 ∧ IsText p.2)
    (hfront : 0x3f ∉ front) (hslash : startsWith (front ++ query) (str "/") = true)
    (hquery : queryString client.lib params = .ok query) :
    askedOf (client.rest.url (front ++ query)) = kept (present client.lib params) := by
  have hbase := notMem_baseUrl client.rest.config
  rw [RestClient.url, if_pos hslash, ← List.append_assoc]
  have hboth : 0x3f ∉ client.rest.config.baseUrl ++ front := by simp [hbase, hfront]
  unfold queryString at hquery
  rw [← present] at hquery
  dsimp only at hquery
  split_ifs at hquery with hnone
  · cases hquery
    rw [hnone, List.append_nil, askedOf, partitionAt_absent hboth]
    rfl
  · split at hquery
    · cases hquery
    · next qs hqs =>
      cases hquery
      exact askedOf_append hboth htexts hqs

/-- How a method asks. -/
def Conduct.Asks (pairs : List (PyStr × PyStr)) : Conduct → Prop
  | .coroutine p => Coro.Only (Op.Asks pairs) p
  | .stream opened => ∀ iterator, opened = .ok iterator → ∀ worlds request,
    .source (.request request) ∈ (iterator worlds).1 → askedOf request.url = pairs
  | .snapshot _ | .offline => False

section
variable (htexts : ∀ p ∈ present client.lib params, IsText p.1 ∧ IsText p.2)

include htexts

theorem asks_get {front query : PyStr} (hfront : 0x3f ∉ front)
    (hslash : startsWith (front ++ query) (str "/") = true)
    (hquery : queryString client.lib params = .ok query) :
    Coro.Only (Op.Asks (kept (present client.lib params))) (client.rest.get (front ++ query)) := by
  refine (only_requestJson client.rest _).mono fun op hop => ?_
  cases hop with
  | send token => exact askedOf_url htexts hfront hslash hquery
  | _ => trivial

theorem asks_stream {front query accept : PyStr} {raiseOnError : Bool} (hfront : 0x3f ∉ front)
    (hslash : startsWith (front ++ query) (str "/") = true)
    (hquery : queryString client.lib params = .ok query) :
    Conduct.Asks (kept (present client.lib params))
      (.stream (.ok (client.rest.streamEvents (front ++ query) accept raiseOnError))) := by
  intro iterator h worlds request hmem
  cases h
  obtain ⟨token, rfl⟩ := client.rest.streamEvents_request hmem
  exact askedOf_url htexts hfront hslash hquery

end

theorem asksStream_check {pairs : List (PyStr × PyStr)} {α : Type} {x : Except Exc α}
    {f : α → Except Exc EventIterator} (hf : ∀ a, x = .ok a → Conduct.Asks pairs (.stream (f a))) :
    Conduct.Asks pairs (.stream (x >>= f)) := by
  intro iterator h
  cases x with
  | error exc => cases h
  | ok a => exact hf a rfl iterator h

/-- A slot has no question mark, nor has what is before it. -/
theorem notMem_symbolPath {front symbol path : PyStr} (hfront : 0x3f ∉ front)
    (hpath : singleSymbolPath symbol = .ok path) : 0x3f ∉ front ++ path := by
  intro hmem
  rcases List.mem_append.1 hmem with hmem | hmem
  · exact hfront hmem
  · exact absurd ((written_singleSymbolPath hpath).chars _ hmem).2 (by decide)

/-- **A method with one query asks for its parameters.** -/
theorem asks_conduct (client : TradeStationClient) (call : PublicCall) {params : QueryParams}
    (hparams : call.queryParams = some params)
    (htexts : ∀ p ∈ present client.lib params, IsText p.1 ∧ IsText p.2) :
    (call.conduct client).Asks (kept (present client.lib params)) := by
  cases call with
  | getOptionExpirations =>
    cases hparams
    refine .check fun _ _ => .check fun _ hquery => .check fun _ hpath => only_readItems ?_
    rw [← List.append_assoc]
    exact asks_get htexts (notMem_symbolPath (by decide) hpath) rfl hquery
  | getOptionStrikes =>
    cases hparams
    refine .check fun _ _ => .check fun _ hquery => .check fun _ hpath => Coro.Only.bind ?_ fun _ =>
      Coro.only_ofExcept _ _
    rw [← List.append_assoc]
    exact asks_get htexts (notMem_symbolPath (by decide) hpath) rfl hquery
  | getBars =>
    cases hparams
    refine .check fun _ _ => .check fun _ hquery => .check fun _ hpath => only_readItems ?_
    rw [← List.append_assoc]
    exact asks_get htexts (notMem_symbolPath (by decide) hpath) rfl hquery
  | streamBars | streamOptionChain =>
    cases hparams
    refine asksStream_check fun _ _ => asksStream_check fun _ _ => asksStream_check fun _ hquery =>
      asksStream_check fun _ hpath => ?_
    rw [← List.append_assoc]
    exact asks_stream htexts (notMem_symbolPath (by decide) hpath) rfl hquery
  | streamMarketDepthAggregates symbol maxLevels | streamMarketDepthQuotes symbol maxLevels =>
    cases hparams
    refine asksStream_check fun _ _ => asksStream_check fun _ _ => asksStream_check fun levels hlevels =>
      asksStream_check fun _ hquery => asksStream_check fun _ hpath => ?_
    obtain rfl : levels = maxLevels := by
      unfold positiveMaxLevels at hlevels
      cases maxLevels with
      | none =>
        cases hlevels
        rfl
      | some n =>
        dsimp only at hlevels
        split_ifs at hlevels
        cases hlevels
        rfl
    rw [← List.append_assoc]
    exact asks_stream htexts (notMem_symbolPath (by decide) hpath) rfl hquery
  | streamOptionQuotes legs =>
    cases hparams
    refine asksStream_check fun _ _ => asksStream_check fun _ _ => ?_
    by_cases hlegs : legs = []
    · rw [if_pos hlegs]
      exact fun iterator h => by cases h
    · rw [if_neg hlegs]
      exact asksStream_check fun _ hquery => asks_stream htexts (by decide) rfl hquery
  | _ => cases hparams

/-- **A request carries the parameters of its call**, and those only. -/
theorem asked_of_performs {call : PublicCall} {log : List Contact} {r : Except Exc Unit}
    (h : (call.conduct client).Performs client log r) {request : HTTPRequest}
    (hrequest : .sent request ∈ log) (hparams : call.queryParams = some params)
    (htexts : ∀ p ∈ present client.lib params, IsText p.1 ∧ IsText p.2) :
    askedOf request.url = kept (present client.lib params) := by
  have hasks := asks_conduct client call hparams htexts
  cases hconduct : call.conduct client with
  | coroutine p =>
    rw [hconduct] at h hasks
    obtain ⟨tr, r', hrun, rfl, rfl⟩ := h
    obtain ⟨event, hevent, hop⟩ := sent_mem_contacts hrequest
    have hevent' := Coro.Only.of_runs hasks hrun event hevent
    rwa [hop] at hevent'
  | stream opened =>
    rw [hconduct] at h hasks
    cases opened with
    | error exc =>
      obtain ⟨rfl, rfl⟩ := h
      cases hrequest
    | ok iterator =>
      obtain ⟨rfl, worlds, hlog⟩ := h
      exact hasks iterator rfl worlds request (sent_mem_streamContacts (hlog.subset hrequest))
  | snapshot accountIds | offline =>
    rw [hconduct] at hasks
    exact hasks.elim

end

/-! ## Charts and option chains -/

/-- A call with the parameters of a chart, an option chain or option quotes. -/
inductive ChartQuery
  | getBars (symbol : PyStr) (params : Option BarChartParams)
  | streamBars (symbol : PyStr) (params : Option StreamBarChartParams) (raiseOnError : Bool)
  | streamOptionChain (underlying : PyStr) (params : Option OptionChainStreamParams)
      (raiseOnError : Bool)
  | streamOptionQuotes (legs : List OptionQuoteLeg) (riskFreeRate : Option Decimal)
      (enableGreeks : Option Bool) (raiseOnError : Bool)

namespace ChartQuery

/-- The call of the method. -/
def call (lib : Library) : ChartQuery → PublicCall
  | getBars symbol params => .getBars symbol (barQueryParams lib params)
  | streamBars symbol params raiseOnError =>
    .streamBars symbol (streamBarQueryParams params) raiseOnError
  | streamOptionChain underlying params raiseOnError =>
    .streamOptionChain underlying (optionChainQueryParams lib params) raiseOnError
  | streamOptionQuotes legs riskFreeRate enableGreeks raiseOnError =>
    .streamOptionQuotes legs riskFreeRate enableGreeks raiseOnError

/-- The texts of the caller that go into the query. -/
def texts (lib : Library) : ChartQuery → List PyStr
  | streamOptionChain _ (some params) _ =>
    (params.expiration.toList ++ params.expiration2.toList).map (Expiration.dumped lib)
  | streamOptionQuotes legs _ _ _ => legs.map OptionQuoteLeg.symbol
  | _ => []

/-- The query says what the caller asks for. -/
def UnderstoodIn (lib : Library) (query : List (PyStr × PyStr)) : ChartQuery → Prop
  | getBars _ params => (params.getD .default).UnderstoodIn lib query
  | streamBars _ params _ => (params.getD .default).UnderstoodIn query
  | streamOptionChain _ params _ => (params.getD .default).UnderstoodIn lib query
  | streamOptionQuotes legs riskFreeRate enableGreeks _ =>
    LegsUnderstoodIn legs riskFreeRate enableGreeks query

end ChartQuery

/-- **What is asked for is understood**: whatever a caller asks of a chart, an option chain or option
quotes, each request says so in its query, with the defaults filled in. -/
theorem chartQuery_understood (client : TradeStationClient) (query : ChartQuery)
    (hlib : client.lib.WritesDates) (htexts : ∀ text ∈ query.texts client.lib, IsText text)
    {log : List Contact} {r : Except Exc Unit}
    (h : ((query.call client.lib).conduct client).Performs client log r) {request : HTTPRequest}
    (hrequest : .sent request ∈ log) : query.UnderstoodIn client.lib (askedOf request.url) := by
  have hasked : ∀ {params : QueryParams}, (query.call client.lib).queryParams = some params →
      params.AreTexts client.lib → askedOf request.url = kept (present client.lib params) :=
    fun hparams hare => asked_of_performs h hrequest hparams hare.present
  cases query with
  | getBars symbol params =>
    cases params with
    | none =>
      rw [hasked rfl areTexts_nil]
      exact BarChartParams.default.understood hlib
    | some params =>
      rw [hasked rfl (params.areTexts hlib)]
      exact params.understood hlib
  | streamBars symbol params raiseOnError =>
    cases params with
    | none =>
      rw [hasked rfl areTexts_nil]
      exact StreamBarChartParams.default.understood client.lib
    | some params =>
      rw [hasked rfl params.areTexts]
      exact params.understood client.lib
  | streamOptionChain underlying params raiseOnError =>
    cases params with
    | none =>
      rw [hasked rfl areTexts_nil]
      exact OptionChainStreamParams.default.understood
    | some params =>
      rw [hasked rfl (params.areTexts fun date hdate => htexts _ (List.mem_map_of_mem hdate))]
      exact params.understood
  | streamOptionQuotes legs riskFreeRate enableGreeks raiseOnError =>
    rw [hasked rfl (legs_areTexts (fun leg hleg => htexts _ (List.mem_map_of_mem hleg)) _ _)]
    exact legs_understood legs riskFreeRate enableGreeks

/-- A client that may ask for market data. -/
def chartClient : TradeStationClient :=
  { simTradeClient with
    lib := { simTradeClient.lib with
      isoformat := fun _ => str "2026-05-15T00:00:00Z", dateIsoformat := fun _ => str "2026-05-15" }
    config := { simConfig with
      requestedScopes := marketDataScope :: simConfig.requestedScopes
      scopes_required := by decide
      trade_scope := by simp [simConfig] } }

theorem chartClient_writesDates : chartClient.lib.WritesDates where
  text date := by
    cases date with
    | date day => exact ⟨isText_str "2026-05-15", show str "2026-05-15" ≠ [] by decide⟩
    | datetime t => exact ⟨isText_str "2026-05-15T00:00:00Z", show str "2026-05-15T00:00:00Z" ≠ [] by decide⟩

/-- The calls of one day. -/
def callsQuery : ChartQuery :=
  .streamOptionChain (str "MSFT")
    (some
      { OptionChainStreamParams.default with
        expiration := some (.date (.date 20588)), optionType := some .call })
    true

/-- A connection that is opened and closes. -/
def quietWorld : StreamWorld where
  turns _ := ⟨.ok (str "T"), [], none, .ok [], .utc 0⟩

/-- What is streamed of these calls. -/
def callsPath : PyStr :=
  str "/marketdata/stream/options/chains/MSFT?expiration=2026-05-15&optionType=Call"

theorem performs_calls :
    ((callsQuery.call chartClient.lib).conduct chartClient).Performs chartClient
      [.token .getAccessToken,
        .sent (chartClient.rest.streamRequest callsPath marketDataStreamAccept (str "T"))] (.ok ()) := by
  have hquery : ∀ params, (callsQuery.call chartClient.lib).queryParams = some params →
      queryString chartClient.lib params = .ok (str "?expiration=2026-05-15&optionType=Call") := by
    rintro _ ⟨⟩
    rfl
  have hscope : chartClient.requireScope marketDataScope = .ok () := rfl
  have hcapability : TradeStationClient.requireCapability chartClient.capabilities.supportsOptionStreams
      "supports_option_streams" = .ok () := rfl
  have hsymbol : singleSymbolPath (str "MSFT") = .ok (str "MSFT") := rfl
  have hopened : (callsQuery.call chartClient.lib).conduct chartClient =
      .stream (.ok (chartClient.rest.streamEvents callsPath marketDataStreamAccept true)) := by
    change Conduct.stream (chartClient.streamOptionChain _ _ _) = _
    unfold TradeStationClient.streamOptionChain
    rw [hscope, hcapability, hquery _ rfl, hsymbol]
    rfl
  have hloop : chartClient.rest.streamLoop callsPath marketDataStreamAccept quietWorld.turns 0 false =
      ([.inl .getAccessToken,
        .inl (.request (chartClient.rest.streamRequest callsPath marketDataStreamAccept (str "T")))],
        none) := by
    rw [RestClient.streamLoop]
    rfl
  rw [hopened]
  refine ⟨rfl, [quietWorld], ?_⟩
  unfold RestClient.streamEvents Stream.TradeStationStream.events
  rw [List.map_cons, RestClient.streamChunks, hloop]
  exact List.prefix_rfl

/-- What is asked for is understood of these calls. -/
theorem chartQuery_understood_calls :
    callsQuery.UnderstoodIn chartClient.lib
      (askedOf (chartClient.rest.streamRequest callsPath marketDataStreamAccept (str "T")).url) := by
  refine chartQuery_understood chartClient callsQuery chartClient_writesDates ?_ performs_calls
    (List.mem_cons_of_mem _ List.mem_cons_self)
  intro text htext
  obtain rfl := List.mem_singleton.1 htext
  exact isText_str "2026-05-15"

end TradeStation
