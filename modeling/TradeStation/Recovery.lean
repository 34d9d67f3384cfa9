import TradeStation.Reads
import TradeStation.Reconciliation
import TradeStation.Wire

/-!
# Orders that were lost

A submission may end without saying whether its order was executed. The caller then reads the orders of
the account, page by page, and looks for the fingerprint of the order among them.

* `runs_orderPages`: what a paged read returns is all that the pages it was answered with list, to the
  last one.
* `lost_order_found`: so if the broker lists what it has executed, an order that reached it is among the
  matches, and where there is no match nothing was executed.
-/

namespace TradeStation

open Python Foundations

/-! ## Pages that were answered -/

/-- The page answered a request of the read for that path. -/
def Paged (client : RestClient) (tr : Trace Op Op.Answer) (path : PyStr) (page : Json.Dict) : Prop :=
  Answered client { method := str "GET", path, retrySafe := true } tr page

/-- Pages behind one another, the first one to a token, up to one without a next token. -/
inductive PagesFrom (paged : PyStr → Json.Dict → Prop) (lib : Library) (basePath : PyStr)
    (params : QueryParams) : Option PyStr → List Json.Dict → Prop
  | last {token : Option PyStr} {path : PyStr} {page : Json.Dict}
    (hpath : pagePath lib basePath params token = .ok path) (hpage : paged path page)
    (hlast : nextToken page = none) : PagesFrom paged lib basePath params token [page]
  | more {token : Option PyStr} {path next : PyStr} {page : Json.Dict} {pages : List Json.Dict}
    (hpath : pagePath lib basePath params token = .ok path) (hpage : paged path page)
    (hnext : nextToken page = some next) (hrest : PagesFrom paged lib basePath params (some next) pages) :
    PagesFrom paged lib basePath params token (page :: pages)

theorem PagesFrom.mono {paged paged' : PyStr → Json.Dict → Prop} {lib : Library} {basePath : PyStr}
    {params : QueryParams} {token : Option PyStr} {pages : List Json.Dict}
    (h : PagesFrom paged lib basePath params token pages)
    (hpaged : ∀ path page, paged path page → paged' path page) :
    PagesFrom paged' lib basePath params token pages := by
  induction h with
  | last hpath hpage hlast => exact .last hpath (hpaged _ _ hpage) hlast
  | more hpath hpage hnext _ ih => exact .more hpath (hpaged _ _ hpage) hnext ih

section
variable {client : TradeStationClient} {basePath : PyStr} {params : QueryParams}

/-- **A paged read returns what its pages list**, all of them up to the last one. -/
theorem runs_orderPages {n : ℕ} {token : Option PyStr} {seen : List PyStr}
    {orders found : List OrderSnapshot} {tr : Trace Op Op.Answer}
    (h : Coro.Runs (client.orderPages client.rest.get basePath params n token seen orders) tr
      (.ok (.ok found))) :
    ∃ pages, PagesFrom (Paged client.rest tr) client.lib basePath params token pages ∧
      found = orders ++ pages.flatMap client.ordersOf := by
  induction n generalizing token seen orders tr with
  | zero =>
    obtain ⟨-, h⟩ := h
    cases h
  | succ n ih =>
    rw [TradeStationClient.orderPages] at h
    split at h
    · obtain ⟨-, h⟩ := h
      cases h
    · next path hpath =>
      obtain ⟨page, tr₁, tr₂, rfl, hget, hrest⟩ := Coro.runs_bind_ok.1 h
      have hpage : ∀ tr₂, Paged client.rest (tr₁ ++ tr₂) path page := fun tr₂ => by
        obtain ⟨token', response, hmem, hanswer⟩ := answered_of_runs hget
        exact ⟨token', response, List.mem_append_left _ hmem, hanswer⟩
      split at hrest
      · obtain ⟨-, hrest⟩ := hrest
        cases hrest
      · next snapshots hsnapshots =>
        have hlisted : client.ordersOf page = snapshots := by
          rw [TradeStationClient.ordersOf, hsnapshots]
          rfl
        split at hrest
        · next hlast =>
          obtain ⟨rfl, hfound⟩ := hrest
          cases hfound
          refine ⟨[page], .last hpath (hpage []) hlast, ?_⟩
          rw [List.flatMap_singleton, hlisted]
        · next next hnext =>
          split_ifs at hrest
          · obtain ⟨-, hrest⟩ := hrest
            cases hrest
          · obtain ⟨pages, hpages, rfl⟩ := ih hrest
            refine ⟨page :: pages, .more hpath (hpage tr₂) hnext (hpages.mono ?_), ?_⟩
            · rintro path' page' ⟨token', response, hmem, hanswer⟩
              exact ⟨token', response, List.mem_append_right _ hmem, hanswer⟩
            · rw [List.flatMap_cons, hlisted, List.append_assoc]

/-- What `get_orders` returns is what the pages of its accounts list. -/
theorem runs_getOrders {accountIds : List PyStr} {pageSize : Option ℤ} {tr : Trace Op Op.Answer}
    {found : List OrderSnapshot} (h : Coro.Runs (client.getOrders accountIds pageSize) tr (.ok found)) :
    ∃ accounts validated pages, client.accountPath accountIds = .ok accounts ∧
      boundedPageSize pageSize = .ok validated ∧
      PagesFrom (Paged client.rest tr) client.lib
        (str "/brokerage/accounts/" ++ accounts ++ str "/orders")
        (validated.map fun size => (str "pageSize", some (.int size))).toList none pages ∧
      found = pages.flatMap client.ordersOf := by
  obtain ⟨-, -, h⟩ := Coro.runs_check_bind_ok.1 h
  obtain ⟨accounts, haccounts, h⟩ := Coro.runs_check_bind_ok.1 h
  obtain ⟨validated, hvalidated, h⟩ := Coro.runs_check_bind_ok.1 h
  obtain ⟨orders, tr₁, tr₂, rfl, hpages, hend⟩ := Coro.runs_bind_ok.1 h
  cases orders with
  | error exc =>
    obtain ⟨-, hend⟩ := hend
    cases hend
  | ok orders =>
    obtain ⟨rfl, hend⟩ := hend
    cases hend
    obtain ⟨pages, hfrom, rfl⟩ := runs_orderPages hpages
    rw [List.append_nil]
    exact ⟨accounts, validated, pages, haccounts, hvalidated, hfrom, List.nil_append _⟩

end

/-! ## Looking for an order -/

/-- The fingerprint of an order that was submitted at that time. -/
def OrderFields.fingerprint (order : OrderFields) (submittedAt : Datetime)
    (haware : submittedAt.aware = true) (payloadHash : PyStr) : UnknownOrderFingerprint where
  accountId := order.accountId
  symbol := order.symbol
  tradeAction := order.tradeAction
  orderType := order.orderType
  quantity := order.quantity
  submittedAt
  limitPrice := order.limitPrice
  stopPrice := order.stopPrice
  payloadHash
  submittedAt_aware := haware

/-- A write of that order is listed, as the broker's schema encodes an order: where its body says the
order, there is a record of the order, opened within the window. -/
def Lists (lib : Library) (order : OrderRequest) (fingerprint : UnknownOrderFingerprint) (timeWindow : ℤ)
    (listed : List OrderSnapshot) (request : HTTPRequest) : Prop :=
  request.jsonBody = some (orderPayload lib order) →
    ∃ record ∈ listed, BrokerRecord fingerprint timeWindow record

/-- **A lost order is found again.** Submissions run side by side, and one of an order has ended somehow.
If `get_orders` of its account returns, and the pages it was answered with list what the broker has
executed of this submission, then an order that reached the broker has its record among the matches of
its fingerprint; so where nothing matches, nothing was executed. The order is one that does not open or
close an option position. -/
theorem lost_order_found {I : Type} [DecidableEq I] {broker : Broker I} (hbroker : broker.Reliable)
    {clients : I → TradeStationClient} {submissions : I → Submission} {s s' : Submitting broker}
    {log : List (Pool.Label I Op Op.Answer)} (hstart : broker.executions s.shared = [])
    (htask : ∀ i, s.task i = (clients i).submit (submissions i))
    (hrun : Path (SubmittingStep broker) s log s') {i : I} {r : Except Exc TradeStationTrade}
    (hended : (s'.task i).Ended r) {order : OrderRequest} (hsubmission : submissions i = .order order)
    (haction : opensOrCloses order.fields.tradeAction = false) {reader : TradeStationClient}
    {accountIds : List PyStr} {pageSize : Option ℤ} {tr : Trace Op Op.Answer} {found : List OrderSnapshot}
    (hread : Coro.Runs (reader.getOrders accountIds pageSize) tr (.ok found)) {submittedAt : Datetime}
    (haware : submittedAt.aware = true) (payloadHash : PyStr) {timeWindow : ℤ}
    (hlists : ∀ accounts validated pages, reader.accountPath accountIds = .ok accounts →
      boundedPageSize pageSize = .ok validated →
      PagesFrom (Paged reader.rest tr) reader.lib
        (str "/brokerage/accounts/" ++ accounts ++ str "/orders")
        (validated.map fun size => (str "pageSize", some (.int size))).toList none pages →
      ∀ request ∈ (broker.executions s'.shared).of i,
        Lists (clients i).lib order (order.fields.fingerprint submittedAt haware payloadHash) timeWindow
          (pages.flatMap reader.ordersOf) request) :
    let fingerprint := order.fields.fingerprint submittedAt haware payloadHash
    let result := matchUnknownOrder fingerprint found timeWindow
    ((broker.executions s'.shared).of i ≠ [] → result.outcome ≠ .noMatch ∧
      ∃ record ∈ result.matched, BrokerRecord fingerprint timeWindow record) ∧
    (result.outcome = .noMatch → (broker.executions s'.shared).of i = []) := by
  intro fingerprint result
  have hfound : (broker.executions s'.shared).of i ≠ [] → result.outcome ≠ .noMatch ∧
      ∃ record ∈ result.matched, BrokerRecord fingerprint timeWindow record := by
    intro hne
    obtain ⟨request, hrequest⟩ := List.exists_mem_of_ne_nil _ hne
    have hexecuted := executed_of_path hbroker hrun hstart i
    have hafter := Pool.after_of_path hrun i
    rw [htask i] at hafter
    -- what was executed says what the order is
    obtain ⟨answer, hsent, hwrite⟩ := hexecuted.mem_sends hrequest
    obtain ⟨asked, payload, call, token, hasks, rfl, hpayload, -⟩ :=
      submit_asks (hafter.runs hended) hsent hwrite
    rw [hsubmission] at hasks
    cases hasks
    have hbody : ((clients i).rest.request call token).jsonBody =
        some (orderPayload (clients i).lib order) := hpayload
    -- so it is among what the pages list
    obtain ⟨accounts, validated, pages, haccounts, hvalidated, hpages, rfl⟩ := runs_getOrders hread
    obtain ⟨record, hrecord, hlisted⟩ :=
      hlists accounts validated pages haccounts hvalidated hpages _ hrequest hbody
    have hmatches := (matches_record_iff hlisted).2 haction
    obtain ⟨houtcome, hmatched⟩ := (mem_matchUnknownOrder hrecord).2 hmatches
    exact ⟨houtcome, record, hmatched, hlisted⟩
  refine ⟨hfound, fun hnone => ?_⟩
  by_contra hne
  exact (hfound hne).1 hnone

/-- The broker's record of the order of one share, as it is listed. -/
def recordJson : Json :=
  .obj [(str "AccountID", .str (str "SIM1")), (str "OrderID", .str (str "1")),
    (str "OrderType", .str (str "Limit")), (str "LimitPrice", .str (str "10")),
    (str "OpenedDateTime", .str (str "1970-01-01T00:01:00Z")),
    (str "Legs", .arr [.obj [(str "Symbol", .str (str "MSFT")), (str "BuyOrSell", .str (str "Buy")),
      (str "QuantityOrdered", .str (str "1")), (str "OpenOrClose", .str (str "Open"))]])]

/-- What is read there. -/
def buyRecord : OrderSnapshot where
  accountId := some (str "SIM1")
  orderId := str "1"
  orderType := some .limit
  limitPrice := some (.ofNat 10)
  openedAt := some ⟨60000000, some (some 0)⟩
  legs := [
    { symbol := some (str "MSFT"), buyOrSell := some (str "Buy"), quantityOrdered := some (.ofNat 1)
      extra := [(str "OpenOrClose", .str (str "Open"))] }]

theorem orderSnapshots_record :
    simTradeClient.orderSnapshots [(str "Orders", .arr [recordJson])] = .ok [buyRecord] := by
  rfl

/-- A page with that record. -/
def recordPage : List UInt8 := ascii
  ("\x7b\"Orders\":[\x7b\"AccountID\":\"SIM1\",\"OrderID\":\"1\",\"OrderType\":\"Limit\"," ++
    "\"LimitPrice\":\"10\",\"OpenedDateTime\":\"1970-01-01T00:01:00Z\"," ++
    "\"Legs\":[\x7b\"Symbol\":\"MSFT\",\"BuyOrSell\":\"Buy\",\"QuantityOrdered\":\"1\"," ++
    "\"OpenOrClose\":\"Open\"\x7d]\x7d]\x7d")

set_option maxRecDepth 2000 in
theorem json_recordPage : (⟨200, [], recordPage⟩ : HTTPResponse).json =
    some (.obj [(str "Orders", .arr [recordJson])]) := by
  rfl

theorem brokerRecord_buy :
    BrokerRecord (buyFields.fingerprint ⟨0, some (some 0)⟩ rfl []) 300000000 buyRecord where
  account := rfl
  symbol := .inl rfl
  orderType := rfl
  limitPrice := rfl
  stopPrice := trivial
  opened := by
    refine ⟨⟨60000000, some (some 0)⟩, rfl, rfl, ?_⟩
    change |(60000000 : ℤ) - 0 - (0 - 0)| ≤ 300000000
    decide
  leg := ⟨_, .ofNat 1, rfl, rfl, rfl, rfl, rfl, str "Open", rfl⟩

/-- The read of the account, and its answer. -/
def recordRead : Trace Op Op.Answer :=
  [⟨.provider .getAccessToken, .ok (str "T")⟩,
    ⟨.send (simTradeClient.rest.request
        { method := str "GET", path := str "/brokerage/accounts/SIM1/orders", retrySafe := true }
        (str "T")), .ok ⟨200, [], recordPage⟩⟩]

theorem runs_recordRead :
    Coro.Runs (simTradeClient.getOrders [str "SIM1"] none) recordRead (.ok [buyRecord]) := by
  have haccounts : simTradeClient.accountPath [str "SIM1"] = .ok (str "SIM1") := by
    rfl
  have hpages : Coro.Runs (simTradeClient.orderPages simTradeClient.rest.get
      (str "/brokerage/accounts/SIM1/orders") [] (999 + 1) none [] []) recordRead
      (.ok (.ok [buyRecord])) :=
    Coro.runs_bind_ok.2 ⟨_, recordRead, [], rfl,
      runs_requestJson_answered json_recordPage simTradeClient.rest _, rfl, rfl⟩
  refine Coro.runs_check_bind_ok.2 ⟨(), rfl, Coro.runs_check_bind_ok.2 ⟨str "SIM1", haccounts,
    Coro.runs_check_bind_ok.2 ⟨none, rfl, Coro.runs_bind_ok.2 ⟨_, recordRead, [], rfl, hpages, rfl, rfl⟩⟩⟩⟩

/-- Whatever page answered the read lists the order. -/
theorem mem_recordPages {basePath : PyStr} {params : QueryParams} {pages : List Json.Dict}
    (h : PagesFrom (Paged simTradeClient.rest recordRead) simTradeClient.lib basePath params none pages) :
    buyRecord ∈ pages.flatMap simTradeClient.ordersOf := by
  have hpage : ∀ {path page}, Paged simTradeClient.rest recordRead path page →
      buyRecord ∈ simTradeClient.ordersOf page := by
    rintro path page ⟨token, response, hmem, -, hjson⟩
    have hresponse : response = ⟨200, [], recordPage⟩ := by
      rcases List.mem_cons.1 hmem with heq | hmem
      · cases heq
      · have hanswer : (.ok response : Except Exc HTTPResponse) = .ok ⟨200, [], recordPage⟩ :=
          eq_of_heq (Event.mk.inj (List.mem_singleton.1 hmem)).2
        exact Except.ok.inj hanswer
    rw [hresponse, json_recordPage] at hjson
    cases hjson
    rw [TradeStationClient.ordersOf, orderSnapshots_record]
    exact List.mem_cons_self
  cases h with
  | last _ h _ => simpa using hpage h
  | more _ h _ _ => exact List.mem_flatMap.2 ⟨_, List.mem_cons_self, hpage h⟩

/-- The answer to the write names no order, and the order is found. -/
theorem lost_order_found_buy : ∃ s' : Submitting (listingBroker Unit), ∃ found,
    Executions.of () s'.shared ≠ [] ∧
      (matchUnknownOrder (buyFields.fingerprint ⟨0, some (some 0)⟩ rfl []) found 300000000).outcome ≠
        .noMatch := by
  have hbody : (⟨200, [], ascii "\x7b\x7d"⟩ : HTTPResponse).json = some (.obj []) := by
    rfl
  have hsent : Path (fun w (event : Event Op Op.Answer) w' => ListingStep () w event.op event.answer w')
      [] (answered (ascii "\x7b\x7d")) [((), simClient.request buyCall (str "T"))] := by
    refine .cons (.passes _ _ fun h => h) (.single (.executes _ _ ?_ ?_))
    · show str "POST" ≠ str "GET"
      decide
    · show ¬((400 : ℤ) ≤ 200 ∧ (200 : ℤ) < 500 ∧ (200 : ℤ) ≠ 408)
      omega
  obtain ⟨r, hrun⟩ : ∃ r, Coro.Runs (placing.task ()) (answered (ascii "\x7b\x7d")) r :=
    ⟨_, runs_answered hbody⟩
  obtain ⟨q, hended, hpath⟩ : ∃ q : Program TradeStationTrade, q.Ended r ∧
      Path (SubmittingStep (listingBroker Unit)) placing _ ⟨_, Function.update placing.task () q⟩ :=
    Pool.path_of_runs hrun hsent
  have hended' : (Function.update placing.task () q ()).Ended r := by
    rw [Function.update_self]
    exact hended
  have htask : ∀ i : Unit, placing.task i =
      TradeStationClient.submit ((fun _ => simTradeClient) i)
        ((fun _ => .order (.mk buyFields [])) i) :=
    fun _ => rfl
  have hfound := (lost_order_found listingBroker_reliable (i := ()) rfl htask hpath hended' rfl rfl
    runs_recordRead rfl [] fun accounts validated pages _ _ hpages request _ _ =>
      ⟨buyRecord, mem_recordPages hpages, brokerRecord_buy⟩).1
  have hone : Executions.of () [((), simClient.request buyCall (str "T"))] ≠ [] := List.cons_ne_nil _ _
  exact ⟨⟨_, Function.update placing.task () q⟩, [buyRecord], hone, (hfound hone).1⟩

end TradeStation
