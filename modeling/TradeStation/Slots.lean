import TradeStation.Boundary
import TradeStation.Endpoints

/-!
# Identifiers in their slots

Which endpoints the methods of the client ask for, and that every URL they ask for is formed for one of
these.

* `PublicCall.endpoints` lists them for each method.
* `addresses` says that no request goes anywhere else.
* `identifiers_confined_iff` reads off that an identifier leaves its slot exactly if it is a dot segment
  and is alone in it.
-/

namespace TradeStation

open Python Foundations TradeStation.Stream

/-! ## How the slots are written -/

/-- The identifiers of a list that are left when they are trimmed. -/
abbrev cleaned (identifiers : List PyStr) : List PyStr := (identifiers.map strip).filter (· ≠ [])

theorem notBlank_cleaned (identifiers : List PyStr) : [] ∉ cleaned identifiers := by
  simp [cleaned]

theorem written_quoted {identifier path : PyStr} (hne : identifier ≠ [])
    (h : TradeStationClient.quoted identifier = .ok path) :
    (Segment.slot [identifier]).Written path := by
  have hjoin : join (str ",") [path] = path := by simp [join]
  have hpaths : [identifier].mapM quote = some [path] := by
    rw [List.mapM_cons, quoted_ok h]
    rfl
  have hwritten := Segment.Written.slot (List.cons_ne_nil _ _) (by simp [hne.symm]) hpaths
  rwa [hjoin] at hwritten

theorem written_orderIdsPath {orderIds : List PyStr} {path : PyStr}
    (h : TradeStationClient.orderIdsPath orderIds = .ok path) :
    (Segment.slot (cleaned orderIds)).Written path := by
  unfold TradeStationClient.orderIdsPath at h
  dsimp only at h
  by_cases hnone : cleaned orderIds = []
  · rw [if_pos hnone] at h
    cases h
  by_cases hmany : maxOrderIdsPerRequest < (cleaned orderIds).length
  · rw [if_neg hnone, if_pos hmany] at h
    cases h
  rw [if_neg hnone, if_neg hmany] at h
  cases hquoted : (cleaned orderIds).mapM TradeStationClient.quoted with
  | error exc =>
    simp only [hquoted] at h
    cases h
  | ok paths =>
    simp only [hquoted] at h
    cases h
    exact .slot hnone (notBlank_cleaned orderIds) (mapM_quoted hquoted)

theorem written_symbolPath {symbols : List PyStr} {path : PyStr} (h : symbolPath symbols = .ok path) :
    (Segment.slot (cleaned symbols)).Written path := by
  unfold symbolPath cleanSymbols at h
  by_cases hnone : cleaned symbols = []
  · rw [if_pos hnone] at h
    cases h
  rw [if_neg hnone] at h
  have hjoined : ((cleaned symbols).mapM TradeStationClient.quoted >>= fun paths =>
      Except.ok (join (str ",") paths)) = .ok path := h
  cases hquoted : (cleaned symbols).mapM TradeStationClient.quoted with
  | error exc =>
    rw [hquoted] at hjoined
    cases hjoined
  | ok paths =>
    rw [hquoted] at hjoined
    cases hjoined
    exact .slot hnone (notBlank_cleaned symbols) (mapM_quoted hquoted)

theorem written_singleSymbolPath {symbol path : PyStr} (h : singleSymbolPath symbol = .ok path) :
    (Segment.slot [strip symbol]).Written path := by
  unfold singleSymbolPath at h
  split_ifs at h with hblank
  exact written_quoted hblank h

theorem isQuery_queryString {lib : Library} {params : QueryParams} {query : PyStr}
    (h : queryString lib params = .ok query) : IsQuery query := by
  unfold queryString at h
  dsimp only at h
  split_ifs at h with hnone
  · cases h
    exact .inl rfl
  · split at h
    · cases h
    · cases h
      exact .inr ⟨_, rfl⟩

section
variable {client : TradeStationClient}

theorem written_accountPath {accountIds : List PyStr} {path : PyStr}
    (h : client.accountPath accountIds = .ok path) : (Segment.slot accountIds).Written path := by
  obtain ⟨hallowed, paths, hpaths, rfl⟩ := accountPath_ok h
  refine .slot ?_ (fun hmem => ?_) hpaths
  · rintro rfl
    cases h
  · exact (client.config.allowlist_clean [] (hallowed [] hmem)).1 rfl

end

/-! ## The endpoints of the methods -/

/-- What is read of some accounts. -/
def ofAccounts (accountIds : List PyStr) (rest : Endpoint) : Endpoint :=
  .literal .brokerage :: .literal .accounts :: .slot accountIds :: rest

/-- What is streamed of some accounts. -/
def streamOfAccounts (accountIds : List PyStr) (rest : Endpoint) : Endpoint :=
  .literal .brokerage :: .literal .stream :: .literal .accounts :: .slot accountIds :: rest

/-- An order that is replaced or cancelled. -/
def orderEndpoint (orderId : PyStr) : Endpoint :=
  [.literal .orderexecution, .literal .orders, .slot [strip orderId]]

/-- The endpoints that a call asks for. -/
def PublicCall.endpoints : PublicCall → List Endpoint
  | getAccounts => [[.literal .brokerage, .literal .accounts]]
  | getBalances accountIds => [ofAccounts accountIds [.literal .balances]]
  | getBodBalances accountIds => [ofAccounts accountIds [.literal .bodbalances]]
  | getPositions accountIds _ => [ofAccounts accountIds [.literal .positions]]
  | getOrders accountIds _ => [ofAccounts accountIds [.literal .orders]]
  | getOrdersById accountIds orderIds =>
    [ofAccounts accountIds [.literal .orders, .slot (cleaned orderIds)]]
  | getHistoricalOrders accountIds _ _ => [ofAccounts accountIds [.literal .historicalorders]]
  | getHistoricalOrdersById accountIds orderIds _ =>
    [ofAccounts accountIds [.literal .historicalorders, .slot (cleaned orderIds)]]
  | fetchStateSnapshot accountIds =>
    [[.literal .brokerage, .literal .accounts], ofAccounts accountIds [.literal .balances],
      ofAccounts accountIds [.literal .positions], ofAccounts accountIds [.literal .orders]]
  | confirmOrder _ | whatIfOrder _ => [[.literal .orderexecution, .literal .orderconfirm]]
  | placeOrder _ => [[.literal .orderexecution, .literal .orders]]
  | confirmOrderGroup _ | whatIfOrderGroup _ =>
    [[.literal .orderexecution, .literal .ordergroupconfirm]]
  | placeOrderGroup _ => [[.literal .orderexecution, .literal .ordergroups]]
  | replaceOrder accountId orderId _ | cancelOrder accountId orderId =>
    [ofAccounts [accountId] [.literal .orders, .slot [strip orderId]], orderEndpoint orderId]
  | getRoutes => [[.literal .orderexecution, .literal .routes]]
  | getActivationTriggers => [[.literal .orderexecution, .literal .activationtriggers]]
  | getCryptoSymbolNames =>
    [[.literal .marketdata, .literal .symbollists, .literal .cryptopairs, .literal .symbolnames]]
  | getQuotes symbols => [[.literal .marketdata, .literal .quotes, .slot (cleaned symbols)]]
  | getSymbols symbols => [[.literal .marketdata, .literal .symbols, .slot (cleaned symbols)]]
  | getOptionExpirations underlying _ =>
    [[.literal .marketdata, .literal .options, .literal .expirations, .slot [strip underlying]]]
  | getOptionSpreadTypes => [[.literal .marketdata, .literal .options, .literal .spreadtypes]]
  | getOptionStrikes underlying _ _ _ _ =>
    [[.literal .marketdata, .literal .options, .literal .strikes, .slot [strip underlying]]]
  | getOptionRiskReward _ => [[.literal .marketdata, .literal .options, .literal .riskreward]]
  | getBars symbol _ => [[.literal .marketdata, .literal .barcharts, .slot [strip symbol]]]
  | streamOrders accountIds _ => [streamOfAccounts accountIds [.literal .orders]]
  | streamOrdersById accountIds orderIds _ =>
    [streamOfAccounts accountIds [.literal .orders, .slot (cleaned orderIds)]]
  | streamPositions accountIds _ => [streamOfAccounts accountIds [.literal .positions]]
  | streamQuotes symbols _ =>
    [[.literal .marketdata, .literal .stream, .literal .quotes, .slot (cleaned symbols)]]
  | streamBars symbol _ _ =>
    [[.literal .marketdata, .literal .stream, .literal .barcharts, .slot [strip symbol]]]
  | streamMarketDepthAggregates symbol _ _ =>
    [[.literal .marketdata, .literal .stream, .literal .marketdepth, .literal .aggregates,
      .slot [strip symbol]]]
  | streamMarketDepthQuotes symbol _ _ =>
    [[.literal .marketdata, .literal .stream, .literal .marketdepth, .literal .quotes,
      .slot [strip symbol]]]
  | streamOptionChain underlying _ _ =>
    [[.literal .marketdata, .literal .stream, .literal .options, .literal .chains,
      .slot [strip underlying]]]
  | streamOptionQuotes _ _ _ _ =>
    [[.literal .marketdata, .literal .stream, .literal .options, .literal .quotes]]
  | orderPayloadHash _ | aclose => []

/-! ## Where the methods go -/

/-- The operation hands the transport no request but to one of these endpoints. -/
def Op.GoesTo (config : TradeStationConfig) (endpoints : List Endpoint) : Op → Prop
  | .send request => ∃ endpoint ∈ endpoints, Addresses config endpoint request.url
  | _ => True

/-- A method returns an iterator only if that sends nothing but to one of these endpoints. -/
def StreamGoesTo (config : TradeStationConfig) (endpoints : List Endpoint)
    (opened : Except Exc EventIterator) : Prop :=
  ∀ iterator, opened = .ok iterator →
    ∀ worlds request, .source (.request request) ∈ (iterator worlds).1 →
      ∃ endpoint ∈ endpoints, Addresses config endpoint request.url

section
variable {client : TradeStationClient} {endpoints : List Endpoint}

theorem addresses_url {segment : Segment} {rest : Endpoint} {texts : List PyStr} {path query : PyStr}
    (hwritten : List.Forall₂ Segment.Written (segment :: rest) texts) (hquery : IsQuery query)
    (hpath : path = joinSegments 0x2f texts query) :
    Addresses client.config (segment :: rest) (client.rest.url path) := by
  refine ⟨texts, query, hwritten, hquery, ?_⟩
  cases hwritten with
  | cons hsegment hrest =>
    rw [url_slash client.rest (hpath.trans rfl), hpath]
    rfl

section
variable {segment : Segment} {rest : Endpoint} {texts : List PyStr}
  (hendpoint : segment :: rest ∈ endpoints)
  (hwritten : List.Forall₂ Segment.Written (segment :: rest) texts)

include hendpoint hwritten

theorem goesTo_requestJson {call : Call} {query : PyStr} (hquery : IsQuery query)
    (hpath : call.path = joinSegments 0x2f texts query) :
    Coro.Only (Op.GoesTo client.config endpoints) (client.rest.requestJson call) := by
  refine (only_requestJson client.rest call).mono fun op hop => ?_
  cases hop with
  | send token => exact ⟨segment :: rest, hendpoint, addresses_url hwritten hquery hpath⟩
  | _ => trivial

theorem goesTo_get {path query : PyStr} (hquery : IsQuery query)
    (hpath : path = joinSegments 0x2f texts query) :
    Coro.Only (Op.GoesTo client.config endpoints) (client.rest.get path) :=
  goesTo_requestJson hendpoint hwritten hquery hpath

theorem goesTo_stream {path query accept : PyStr} {raiseOnError : Bool} (hquery : IsQuery query)
    (hpath : path = joinSegments 0x2f texts query) :
    StreamGoesTo client.config endpoints
      (.ok (client.rest.streamEvents path accept raiseOnError)) := by
  intro iterator h worlds request hmem
  cases h
  obtain ⟨token, rfl⟩ := client.rest.streamEvents_request hmem
  exact ⟨segment :: rest, hendpoint, addresses_url hwritten hquery hpath⟩

end

theorem StreamGoesTo.check {α : Type} {x : Except Exc α} {f : α → Except Exc EventIterator}
    (hf : ∀ a, x = .ok a → StreamGoesTo client.config endpoints (f a)) :
    StreamGoesTo client.config endpoints (x >>= f) :=
  forall_ok_bind hf

theorem goesTo_getAccounts (h : [.literal .brokerage, .literal .accounts] ∈ endpoints) :
    Coro.Only (Op.GoesTo client.config endpoints) client.getAccounts :=
  .check fun _ _ => only_readItems
    (goesTo_get h (.cons (.literal _) (.cons (.literal _) .nil)) (.inl rfl) rfl)

section
variable {accountIds : List PyStr} {accounts : PyStr}

/-- Reading something of some accounts. -/
theorem goesTo_accounts {name : Word} {path query : PyStr}
    (h : ofAccounts accountIds [.literal name] ∈ endpoints)
    (haccounts : client.accountPath accountIds = .ok accounts) (hquery : IsQuery query)
    (hpath : path = str "/brokerage/accounts/" ++ accounts ++ 0x2f :: (name.text ++ query)) :
    Coro.Only (Op.GoesTo client.config endpoints) (client.rest.get path) := by
  refine goesTo_get h (.cons (.literal _) (.cons (.literal _)
    (.cons (written_accountPath haccounts) (.cons (.literal _) .nil)))) hquery ?_
  rw [hpath, List.append_assoc]
  rfl

/-- Reading some orders of some accounts. -/
theorem goesTo_accountOrders {orderIds : List PyStr} {name : Word} {orders path query : PyStr}
    (h : ofAccounts accountIds [.literal name, .slot (cleaned orderIds)] ∈ endpoints)
    (haccounts : client.accountPath accountIds = .ok accounts)
    (horders : TradeStationClient.orderIdsPath orderIds = .ok orders) (hquery : IsQuery query)
    (hpath : path = str "/brokerage/accounts/" ++ accounts ++
      0x2f :: (name.text ++ 0x2f :: (orders ++ query))) :
    Coro.Only (Op.GoesTo client.config endpoints) (client.rest.get path) := by
  refine goesTo_get h (.cons (.literal _) (.cons (.literal _) (.cons (written_accountPath haccounts)
    (.cons (.literal _) (.cons (written_orderIdsPath horders) .nil))))) hquery ?_
  rw [hpath, List.append_assoc]
  rfl

end

theorem goesTo_getBalances {accountIds : List PyStr}
    (h : ofAccounts accountIds [.literal .balances] ∈ endpoints) :
    Coro.Only (Op.GoesTo client.config endpoints) (client.getBalances accountIds) :=
  .check fun _ _ => .check fun _ haccounts =>
    only_readItems (goesTo_accounts h haccounts (.inl rfl) rfl)

theorem goesTo_getBodBalances {accountIds : List PyStr}
    (h : ofAccounts accountIds [.literal .bodbalances] ∈ endpoints) :
    Coro.Only (Op.GoesTo client.config endpoints) (client.getBodBalances accountIds) :=
  .check fun _ _ => .check fun _ haccounts =>
    only_readItems (goesTo_accounts h haccounts (.inl rfl) rfl)

theorem goesTo_getPositions {accountIds symbols : List PyStr}
    (h : ofAccounts accountIds [.literal .positions] ∈ endpoints) :
    Coro.Only (Op.GoesTo client.config endpoints) (client.getPositions accountIds symbols) :=
  .check fun _ _ => .check fun _ haccounts => .check fun _ _ => .check fun _ hquery =>
    only_readItems (goesTo_accounts h haccounts (isQuery_queryString hquery) rfl)

/-- Following the pages of some orders of some accounts. -/
theorem goesTo_orderPages {accountIds : List PyStr} {name : Word} {accounts path : PyStr}
    {params : QueryParams} (h : ofAccounts accountIds [.literal name] ∈ endpoints)
    (haccounts : client.accountPath accountIds = .ok accounts)
    (hpath : path = str "/brokerage/accounts/" ++ accounts ++ 0x2f :: name.text) :
    Coro.Only (Op.GoesTo client.config endpoints)
      (client.getOrderPages client.rest.get path params >>= Coro.ofExcept) := by
  refine Coro.Only.bind (only_orderPages (fun _ query hquery => ?_) _ _ _ _) fun _ =>
    Coro.only_ofExcept _ _
  refine goesTo_accounts h haccounts (isQuery_queryString hquery) ?_
  rw [hpath, List.append_assoc, List.append_assoc]
  rfl

theorem goesTo_getOrders {accountIds : List PyStr} {pageSize : Option ℤ}
    (h : ofAccounts accountIds [.literal .orders] ∈ endpoints) :
    Coro.Only (Op.GoesTo client.config endpoints) (client.getOrders accountIds pageSize) :=
  .check fun _ _ => .check fun _ haccounts => .check fun _ _ => goesTo_orderPages h haccounts rfl

theorem goesTo_getHistoricalOrders {accountIds : List PyStr} {since : Datetime}
    {pageSize : Option ℤ} (h : ofAccounts accountIds [.literal .historicalorders] ∈ endpoints) :
    Coro.Only (Op.GoesTo client.config endpoints)
      (client.getHistoricalOrders accountIds since pageSize) :=
  .check fun _ _ => .check fun _ haccounts => .check fun _ _ => goesTo_orderPages h haccounts rfl

theorem goesTo_getOrdersById {accountIds orderIds : List PyStr}
    (h : ofAccounts accountIds [.literal .orders, .slot (cleaned orderIds)] ∈ endpoints) :
    Coro.Only (Op.GoesTo client.config endpoints) (client.getOrdersById accountIds orderIds) := by
  refine .check fun _ _ => .check fun _ haccounts => .check fun orders horders => ?_
  refine Coro.Only.bind ?_ fun _ => Coro.only_ofExcept _ _
  refine goesTo_accountOrders h haccounts horders (.inl rfl) ?_
  rw [List.append_nil, List.append_assoc]
  rfl

theorem goesTo_getHistoricalOrdersById {accountIds orderIds : List PyStr} {since : Datetime}
    (h : ofAccounts accountIds [.literal .historicalorders, .slot (cleaned orderIds)] ∈ endpoints) :
    Coro.Only (Op.GoesTo client.config endpoints)
      (client.getHistoricalOrdersById accountIds orderIds since) := by
  refine .check fun _ _ => .check fun _ haccounts => .check fun _ horders =>
    .check fun _ hquery => ?_
  refine Coro.Only.bind ?_ fun _ => Coro.only_ofExcept _ _
  exact goesTo_accountOrders h haccounts horders (isQuery_queryString hquery) rfl

section
variable {accountIds : List PyStr} {accounts path accept : PyStr} {raiseOnError : Bool}

/-- Streaming something of some accounts. -/
theorem goesTo_streamAccounts {name : Word}
    (h : streamOfAccounts accountIds [.literal name] ∈ endpoints)
    (haccounts : client.accountPath accountIds = .ok accounts)
    (hpath : path = str "/brokerage/stream/accounts/" ++ accounts ++ 0x2f :: name.text) :
    StreamGoesTo client.config endpoints
      (.ok (client.rest.streamEvents path accept raiseOnError)) := by
  refine goesTo_stream h (.cons (.literal _) (.cons (.literal _) (.cons (.literal _)
    (.cons (written_accountPath haccounts) (.cons (.literal _) .nil))))) (.inl rfl) ?_
  rw [hpath, List.append_assoc]
  exact congrArg (fun rest => str "/brokerage/stream/accounts/" ++ (accounts ++ 0x2f :: rest))
    (List.append_nil name.text).symm

/-- Streaming some orders of some accounts. -/
theorem goesTo_streamAccountOrders {orderIds : List PyStr} {orders : PyStr}
    (h : streamOfAccounts accountIds [.literal .orders, .slot (cleaned orderIds)] ∈ endpoints)
    (haccounts : client.accountPath accountIds = .ok accounts)
    (horders : TradeStationClient.orderIdsPath orderIds = .ok orders)
    (hpath : path = str "/brokerage/stream/accounts/" ++ accounts ++ (str "/orders/" ++ orders)) :
    StreamGoesTo client.config endpoints
      (.ok (client.rest.streamEvents path accept raiseOnError)) := by
  refine goesTo_stream h (.cons (.literal _) (.cons (.literal _) (.cons (.literal _)
    (.cons (written_accountPath haccounts) (.cons (.literal _)
      (.cons (written_orderIdsPath horders) .nil)))))) (.inl rfl) ?_
  rw [hpath, List.append_assoc]
  exact congrArg
    (fun rest => str "/brokerage/stream/accounts/" ++ (accounts ++ (str "/orders/" ++ rest)))
    (List.append_nil orders).symm

end

/-- Two literal words. -/
theorem written_two (first second : Word) :
    List.Forall₂ Segment.Written [.literal first, .literal second] [first.text, second.text] :=
  .cons (.literal first) (.cons (.literal second) .nil)

theorem goesTo_confirmOrder {order : OrderRequest}
    (h : [.literal .orderexecution, .literal .orderconfirm] ∈ endpoints) :
    Coro.Only (Op.GoesTo client.config endpoints) (client.confirmOrder order) := by
  refine .check fun _ _ => .check fun _ _ => ?_
  refine (only_validateOrderForConfig (fun _ => trivial) _ _ _).bind fun _ => ?_
  exact (goesTo_requestJson h (written_two _ _) (.inl rfl) rfl).bind fun _ => Coro.only_ofExcept _ _

theorem goesTo_confirmOrderGroup {group : GroupOrderRequest}
    (h : [.literal .orderexecution, .literal .ordergroupconfirm] ∈ endpoints) :
    Coro.Only (Op.GoesTo client.config endpoints) (client.confirmOrderGroup group) := by
  refine .check fun _ _ => .check fun _ _ => .check fun _ _ => ?_
  refine (only_validateOrdersForConfig (fun _ => trivial) _ _ _).bind fun _ => ?_
  exact (goesTo_requestJson h (written_two _ _) (.inl rfl) rfl).bind fun _ => Coro.only_ofExcept _ _

theorem goesTo_placeOrder {order : OrderRequest}
    (h : [.literal .orderexecution, .literal .orders] ∈ endpoints) :
    Coro.Only (Op.GoesTo client.config endpoints) (client.placeOrder order) := by
  refine .check fun _ _ => .check fun _ _ => ?_
  refine (only_validateOrderForConfig (fun _ => trivial) _ _ _).bind fun _ => ?_
  exact only_settle (goesTo_requestJson h (written_two _ _) (.inl rfl) rfl)

theorem goesTo_placeOrderGroup {group : GroupOrderRequest}
    (h : [.literal .orderexecution, .literal .ordergroups] ∈ endpoints) :
    Coro.Only (Op.GoesTo client.config endpoints) (client.placeOrderGroup group) := by
  refine .check fun _ _ => .check fun _ _ => ?_
  refine (only_validateOrdersForConfig (fun _ => trivial) _ _ _).bind fun _ => ?_
  exact only_settle (goesTo_requestJson h (written_two _ _) (.inl rfl) rfl)

section
variable {accountId orderId cleanedOrderId : PyStr}

/-- The lookup in front of a write. -/
theorem goesTo_lookup
    (h : ofAccounts [accountId] [.literal .orders, .slot [strip orderId]] ∈ endpoints)
    (hcleaned : TradeStationClient.orderIdValue orderId = .ok cleanedOrderId) :
    Coro.Only (Op.GoesTo client.config endpoints)
      (client.assertOrderBelongsToAccount accountId cleanedOrderId) := by
  obtain ⟨hne, rfl⟩ := orderIdValue_ok hcleaned
  refine only_assertOrderBelongsToAccount client (goesTo_getOrdersById ?_)
  have hlist : cleaned [strip orderId] = [strip orderId] := by
    simp [cleaned, strip_strip, hne]
  rw [hlist]
  exact h

/-- A write to an order. -/
theorem goesTo_orderWrite {call : Call} {path : PyStr} (h : orderEndpoint orderId ∈ endpoints)
    (hcleaned : TradeStationClient.orderIdValue orderId = .ok cleanedOrderId)
    (hquoted : TradeStationClient.quoted cleanedOrderId = .ok path)
    (hpath : call.path = str "/orderexecution/orders/" ++ path) :
    Coro.Only (Op.GoesTo client.config endpoints) (client.rest.requestJson call) := by
  obtain ⟨hne, rfl⟩ := orderIdValue_ok hcleaned
  refine goesTo_requestJson h (.cons (.literal _) (.cons (.literal _)
    (.cons (written_quoted hne hquoted) .nil))) (.inl rfl) ?_
  rw [hpath, joinSegments, joinSegments, joinSegments, joinSegments, List.append_nil]
  rfl

theorem goesTo_replaceOrder {replacement : Replacement}
    (hlookup : ofAccounts [accountId] [.literal .orders, .slot [strip orderId]] ∈ endpoints)
    (hwrite : orderEndpoint orderId ∈ endpoints) :
    Coro.Only (Op.GoesTo client.config endpoints)
      (client.replaceOrder accountId orderId replacement) := by
  refine .check fun _ _ => .check fun _ _ => .check fun _ _ => ?_
  refine (only_assertCanSubmitOrders (fun _ => trivial) _ _ _).bind fun _ => ?_
  refine .check fun cleaned hcleaned => (goesTo_lookup hlookup hcleaned).bind fun _ => ?_
  split
  · trivial
  · exact .check fun _ _ => .check fun _ hquoted =>
      only_settle (goesTo_orderWrite hwrite hcleaned hquoted rfl)

theorem goesTo_cancelOrder
    (hlookup : ofAccounts [accountId] [.literal .orders, .slot [strip orderId]] ∈ endpoints)
    (hwrite : orderEndpoint orderId ∈ endpoints) :
    Coro.Only (Op.GoesTo client.config endpoints) (client.cancelOrder accountId orderId) := by
  refine .check fun _ _ => .check fun _ _ => .check fun _ _ => .check fun cleaned hcleaned => ?_
  refine (goesTo_lookup hlookup hcleaned).bind fun _ => .check fun _ hquoted => ?_
  exact goesTo_orderWrite hwrite hcleaned hquoted rfl

end

section
variable {first second : Word} {segment : Segment} {text path query : PyStr}

/-- A slot behind two words. -/
theorem written_three (hsegment : segment.Written text) :
    List.Forall₂ Segment.Written [.literal first, .literal second, segment]
      [first.text, second.text, text] :=
  .cons (.literal first) (.cons (.literal second) (.cons hsegment .nil))

/-- A slot behind three words. -/
theorem written_four {third : Word} (hsegment : segment.Written text) :
    List.Forall₂ Segment.Written [.literal first, .literal second, .literal third, segment]
      [first.text, second.text, third.text, text] :=
  .cons (.literal first) (.cons (.literal second) (.cons (.literal third) (.cons hsegment .nil)))

/-- A slot behind four words. -/
theorem written_five {third fourth : Word} (hsegment : segment.Written text) :
    List.Forall₂ Segment.Written
      [.literal first, .literal second, .literal third, .literal fourth, segment]
      [first.text, second.text, third.text, fourth.text, text] :=
  .cons (.literal first) (written_four hsegment)

end

/-- A path that ends with a slot. -/
theorem append_blank (start text : PyStr) : start ++ text = start ++ (text ++ []) := by
  rw [List.append_nil]

theorem goesTo_snapshot {accountIds : List PyStr} {tr : Trace Op Op.Answer}
    {r : Except Exc AccountStateSnapshot}
    (haccounts : [.literal .brokerage, .literal .accounts] ∈ endpoints)
    (hbalances : ofAccounts accountIds [.literal .balances] ∈ endpoints)
    (hpositions : ofAccounts accountIds [.literal .positions] ∈ endpoints)
    (horders : ofAccounts accountIds [.literal .orders] ∈ endpoints)
    (h : client.FetchesStateSnapshot accountIds tr r) :
    ∀ event ∈ tr, event.op.GoesTo client.config endpoints := by
  unfold TradeStationClient.FetchesStateSnapshot at h
  cases hpath : client.accountPath accountIds with
  | error exc =>
    rw [hpath] at h
    obtain ⟨rfl, -⟩ := h
    simp
  | ok path =>
    rw [hpath] at h
    obtain ⟨r', hgather, -⟩ := h
    refine hgather.forall_mem (fun _ _ => (goesTo_getAccounts haccounts).of_runs) fun _ _ h => ?_
    refine h.forall_mem (fun _ _ => (goesTo_getBalances hbalances).of_runs) fun _ _ h => ?_
    exact h.forall_mem (fun _ _ => (goesTo_getPositions hpositions).of_runs)
      fun _ _ => (goesTo_getOrders horders).of_runs

end

/-- What a method asks for. -/
def Conduct.GoesTo (client : TradeStationClient) (endpoints : List Endpoint) : Conduct → Prop
  | .coroutine p => Coro.Only (Op.GoesTo client.config endpoints) p
  | .stream opened => StreamGoesTo client.config endpoints opened
  | .snapshot accountIds => ∀ tr r, client.FetchesStateSnapshot accountIds tr r →
      ∀ event ∈ tr, event.op.GoesTo client.config endpoints
  | .offline => True

/-- **Every method asks for its endpoints** and for no others. -/
theorem goesTo (client : TradeStationClient) (call : PublicCall) :
    (call.conduct client).GoesTo client call.endpoints := by
  have hself : ∀ {endpoint : Endpoint} {endpoints}, endpoint ∈ endpoint :: endpoints :=
    List.mem_cons_self
  cases call with
  | getAccounts => exact goesTo_getAccounts hself
  | getBalances => exact goesTo_getBalances hself
  | getBodBalances => exact goesTo_getBodBalances hself
  | getPositions => exact goesTo_getPositions hself
  | getOrders => exact goesTo_getOrders hself
  | getOrdersById => exact goesTo_getOrdersById hself
  | getHistoricalOrders => exact goesTo_getHistoricalOrders hself
  | getHistoricalOrdersById => exact goesTo_getHistoricalOrdersById hself
  | fetchStateSnapshot =>
    intro tr r h
    refine goesTo_snapshot ?_ ?_ ?_ ?_ h <;> simp [PublicCall.endpoints]
  | confirmOrder | whatIfOrder => exact goesTo_confirmOrder hself
  | placeOrder => exact goesTo_placeOrder hself
  | confirmOrderGroup | whatIfOrderGroup => exact goesTo_confirmOrderGroup hself
  | placeOrderGroup => exact goesTo_placeOrderGroup hself
  | replaceOrder => exact goesTo_replaceOrder hself (List.mem_cons_of_mem _ hself)
  | cancelOrder => exact goesTo_cancelOrder hself (List.mem_cons_of_mem _ hself)
  | getRoutes | getActivationTriggers =>
    exact .check fun _ _ => goesTo_get hself (written_two _ _) (.inl rfl) rfl
  | getCryptoSymbolNames =>
    refine .check fun _ _ => ?_
    refine (goesTo_get hself (written_four (.literal _)) (.inl rfl) rfl).bind fun _ => ?_
    split <;> trivial
  | getQuotes | getSymbols =>
    exact .check fun _ _ => .check fun _ hpath => only_readItems
      (goesTo_get hself (written_three (written_symbolPath hpath)) (.inl rfl) (append_blank _ _))
  | getOptionExpirations =>
    exact .check fun _ _ => .check fun _ hquery => .check fun _ hpath => only_readItems
      (goesTo_get hself (written_four (written_singleSymbolPath hpath)) (isQuery_queryString hquery)
        rfl)
  | getOptionSpreadTypes =>
    exact .check fun _ _ => only_readItems
      (goesTo_get hself (written_three (.literal _)) (.inl rfl) rfl)
  | getOptionStrikes =>
    exact .check fun _ _ => .check fun _ hquery => .check fun _ hpath =>
      (goesTo_get hself (written_four (written_singleSymbolPath hpath)) (isQuery_queryString hquery)
        rfl).bind fun _ => Coro.only_ofExcept _ _
  | getOptionRiskReward =>
    exact .check fun _ _ =>
      (goesTo_requestJson hself (written_three (.literal _)) (.inl rfl) rfl).bind fun _ =>
        Coro.only_ofExcept _ _
  | getBars =>
    exact .check fun _ _ => .check fun _ hquery => .check fun _ hpath => only_readItems
      (goesTo_get hself (written_three (written_singleSymbolPath hpath)) (isQuery_queryString hquery)
        rfl)
  | orderPayloadHash | aclose => trivial
  | streamOrders | streamPositions =>
    exact .check fun _ _ => .check fun _ _ => .check fun _ haccounts =>
      goesTo_streamAccounts hself haccounts rfl
  | streamOrdersById =>
    exact .check fun _ _ => .check fun _ _ => .check fun _ haccounts => .check fun _ horders =>
      goesTo_streamAccountOrders hself haccounts horders rfl
  | streamQuotes =>
    exact .check fun _ _ => .check fun _ _ => .check fun _ hpath =>
      goesTo_stream hself (written_four (written_symbolPath hpath)) (.inl rfl) (append_blank _ _)
  | streamBars =>
    exact .check fun _ _ => .check fun _ _ => .check fun _ hquery => .check fun _ hpath =>
      goesTo_stream hself (written_four (written_singleSymbolPath hpath)) (isQuery_queryString hquery)
        rfl
  | streamOptionChain =>
    exact .check fun _ _ => .check fun _ _ => .check fun _ hquery => .check fun _ hpath =>
      goesTo_stream hself (written_five (written_singleSymbolPath hpath)) (isQuery_queryString hquery)
        rfl
  | streamMarketDepthAggregates | streamMarketDepthQuotes =>
    exact .check fun _ _ => .check fun _ _ => .check fun _ _ => .check fun _ hquery =>
      .check fun _ hpath =>
        goesTo_stream hself (written_five (written_singleSymbolPath hpath))
          (isQuery_queryString hquery) rfl
  | streamOptionQuotes legs =>
    refine .check fun _ _ => .check fun _ _ => ?_
    by_cases hlegs : legs = []
    · intro iterator h
      rw [if_pos hlegs] at h
      cases h
    · rw [if_neg hlegs]
      exact .check fun _ hquery =>
        goesTo_stream hself (written_four (.literal _)) (isQuery_queryString hquery) rfl

/-! ## Every request -/

/-- Every request is for an endpoint of its call. -/
theorem addresses_of_performs {client : TradeStationClient} {call : PublicCall} {log : List Contact}
    {r : Except Exc Unit} (h : (call.conduct client).Performs client log r) {request : HTTPRequest}
    (hrequest : .sent request ∈ log) :
    ∃ endpoint ∈ call.endpoints, Addresses client.config endpoint request.url := by
  have hgoes := goesTo client call
  have hcontact : ∀ {tr : Trace Op Op.Answer},
      (∀ event ∈ tr, event.op.GoesTo client.config call.endpoints) → .sent request ∈ contacts tr →
        ∃ endpoint ∈ call.endpoints, Addresses client.config endpoint request.url := by
    intro tr htr hsent
    obtain ⟨event, hevent, hop⟩ := sent_mem_contacts hsent
    have hevent' := htr event hevent
    rw [hop] at hevent'
    exact hevent'
  cases hconduct : call.conduct client with
  | coroutine p =>
    rw [hconduct] at h hgoes
    obtain ⟨tr, r', hrun, rfl, rfl⟩ := h
    exact hcontact (Coro.Only.of_runs hgoes hrun) hrequest
  | stream opened =>
    rw [hconduct] at h hgoes
    cases opened with
    | error exc =>
      obtain ⟨rfl, rfl⟩ := h
      cases hrequest
    | ok iterator =>
      obtain ⟨rfl, worlds, hlog⟩ := h
      exact hgoes iterator rfl worlds request (sent_mem_streamContacts (hlog.subset hrequest))
  | snapshot accountIds =>
    rw [hconduct] at h hgoes
    obtain ⟨tr, r', hfetches, rfl, rfl⟩ := h
    exact hcontact (hgoes tr r' hfetches) hrequest
  | offline =>
    rw [hconduct] at h
    obtain rfl : log = [] := h
    cases hrequest

/-- **An identifier leaves its slot exactly if it is a dot segment and alone in it.** Whatever
method is called with whatever identifiers, each of its requests is for one of its endpoints, and is
sent to the host of the environment. The normalised URL has the identifiers in their slots exactly if
no slot holds `.` or `..` only. -/
theorem identifiers_confined_iff (client : TradeStationClient) (call : PublicCall)
    (htexts : ∀ endpoint ∈ call.endpoints, ∀ segment ∈ endpoint, segment.AreTexts)
    (log : List Contact) (r : Except Exc Unit) (h : (call.conduct client).Performs client log r)
    (request : HTTPRequest) (hrequest : .sent request ∈ log) :
    ∃ endpoint ∈ call.endpoints, Addresses client.config endpoint request.url ∧ ∀ keep,
      authorityOf (normalise keep request.url) = client.config.environment.origin ∧
      (Confined client.config keep endpoint request.url ↔ ∀ segment ∈ endpoint, ¬segment.Dotted) := by
  obtain ⟨endpoint, hendpoint, haddresses⟩ := addresses_of_performs h hrequest
  exact ⟨endpoint, hendpoint, haddresses, fun keep =>
    ⟨authorityOf_addressed haddresses keep, confined_iff haddresses (htexts endpoint hendpoint) keep⟩⟩

theorem identifiers_confined_iff_balances :
    let url := str "https://sim-api.tradestation.com/v3/brokerage/accounts/SIM1/balances"
    ∃ endpoint ∈ (PublicCall.getBalances [str "SIM1"]).endpoints,
      Addresses simConfig endpoint url ∧ ∀ keep,
        authorityOf (normalise keep url) = str "https://sim-api.tradestation.com" ∧
        (Confined simConfig keep endpoint url ↔ ∀ segment ∈ endpoint, ¬segment.Dotted) :=
  identifiers_confined_iff simTradeClient (.getBalances [str "SIM1"]) (by decide) _ _
    performs_balances _ (List.mem_cons_of_mem _ List.mem_cons_self)

/-- Reading the order that is named `.`. -/
theorem performs_dotOrder :
    (PublicCall.conduct simTradeClient (.getOrdersById [str "SIM1"] [str "."])).Performs
      simTradeClient
      [.token .getAccessToken, .sent (simTradeClient.rest.request
        { method := str "GET", path := str "/brokerage/accounts/SIM1/orders/.", retrySafe := true }
        (str "T"))] (.ok ()) := by
  have hbody : (⟨200, [], ascii "\x7b\x7d"⟩ : HTTPResponse).json = some (.obj []) := rfl
  have hscope : simTradeClient.requireScope readAccountScope = .ok () := rfl
  have haccounts : simTradeClient.accountPath [str "SIM1"] = .ok (str "SIM1") := rfl
  have horders : TradeStationClient.orderIdsPath [str "."] = .ok (str ".") := rfl
  have hread : simTradeClient.getOrdersById [str "SIM1"] [str "."] =
      (simTradeClient.rest.get (str "/brokerage/accounts/SIM1/orders/.") >>= fun payload =>
        Coro.ofExcept (simTradeClient.orderSnapshots payload)) := by
    unfold TradeStationClient.getOrdersById
    simp only [hscope, haccounts, horders, Coro.ofExcept_ok, Coro.ret_bind]
    rfl
  have hget : Coro.Runs (simTradeClient.rest.get (str "/brokerage/accounts/SIM1/orders/.")) _
      (.ok []) := runs_requestJson_answered hbody simTradeClient.rest _
  have hrun := hget.bind_ofExcept simTradeClient.orderSnapshots
  rw [← hread] at hrun
  exact ⟨_, _, hrun, rfl, rfl⟩

/-- The order that is named `.` is not asked for: the path is that of all orders. -/
theorem dotOrder_not_confined :
    ¬∀ (call : PublicCall) (log : List Contact) (r : Except Exc Unit),
      (∀ endpoint ∈ call.endpoints, ∀ segment ∈ endpoint, segment.AreTexts) →
      (call.conduct simTradeClient).Performs simTradeClient log r →
      ∀ request, .sent request ∈ log →
        ∃ endpoint ∈ call.endpoints, ∀ keep, Confined simConfig keep endpoint request.url := by
  intro h
  obtain ⟨endpoint, hendpoint, hconfined⟩ := h (.getOrdersById [str "SIM1"] [str "."]) _ _
    (by decide) performs_dotOrder _ (List.mem_cons_of_mem _ List.mem_cons_self)
  have hslots := (hconfined false).slots.length_eq
  have hsix : endpoint.length = 5 := by
    rw [List.mem_singleton.1 hendpoint]
    rfl
  have hfive : (pathSegments (normalise false (simTradeClient.rest.url
      (str "/brokerage/accounts/SIM1/orders/.")))).length = 5 := by
    decide
  rw [List.length_cons, hsix] at hslots
  exact absurd (hslots.trans hfive) (by decide)

end TradeStation
