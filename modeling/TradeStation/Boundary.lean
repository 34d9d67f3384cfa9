import TradeStation.Preflight
import TradeStation.Reads
import TradeStation.RiskChecks

/-!
# The account allowlist

No request names an account that the allowlist does not hold, whichever method of the client makes it.

* `NamesOnly` reads the accounts off a request, off its path and off the order nodes of its payload.
* `bounded` lists what every method does: it raises before it asks for a token, or all the accounts it
  is called with are allowed and are all that its requests name.
* `allowlist_boundary` puts this together, for the coroutines, the streams and the gathered snapshot.
-/

namespace TradeStation

open Python Foundations TradeStation.Stream

/-! ## The accounts of a request -/

/-- What stands before the accounts of a path. -/
def accountPrefixes : List PyStr := [str "/brokerage/accounts/", str "/brokerage/stream/accounts/"]

/-- The items of the list of accounts in a path, up to the next slash or the query. -/
def accountItems (path : PyStr) : List PyStr :=
  match accountPrefixes.find? (·.isPrefixOf path) with
  | none => []
  | some behind =>
    ((path.drop behind.length).takeWhile fun c => c ≠ 0x2f ∧ c ≠ 0x3f).splitOn 0x2c

/-- A value is the `AccountID` of an order node of a payload. The nodes are what stands under `Orders`
and `OSOs`, at every depth. -/
inductive NodeAccount (value : Json) : Json → Prop
  | node {fields : Json.Dict} (h : (str "AccountID", value) ∈ fields) : NodeAccount value (.obj fields)
  | under {fields : Json.Dict} {key : PyStr} {item : Json} (h : (key, item) ∈ fields)
      (hkey : key = str "Orders" ∨ key = str "OSOs") (hitem : NodeAccount value item) :
      NodeAccount value (.obj fields)
  | item {items : List Json} {item : Json} (h : item ∈ items) (hitem : NodeAccount value item) :
      NodeAccount value (.arr items)

/-- A request goes to the configured URL, and names no accounts but these. -/
structure NamesOnly (config : TradeStationConfig) (accounts : List PyStr) (request : HTTPRequest) :
    Prop where
  base : config.baseUrl <+: request.url
  path : ∀ item ∈ accountItems (request.url.drop config.baseUrl.length),
    ∃ account ∈ accounts, quote account = some item
  payload : ∀ fields, request.jsonBody = some fields → ∀ value, NodeAccount value (.obj fields) →
    ∃ account ∈ accounts, value = .str account

theorem NamesOnly.mono {config : TradeStationConfig} {accounts accounts' : List PyStr}
    {request : HTTPRequest} (h : NamesOnly config accounts request) (hsub : accounts ⊆ accounts') :
    NamesOnly config accounts' request := by
  refine ⟨h.base, fun item hitem => ?_, fun fields hfields value hvalue => ?_⟩
  · obtain ⟨account, haccount, hquote⟩ := h.path item hitem
    exact ⟨account, hsub haccount, hquote⟩
  · obtain ⟨account, haccount, heq⟩ := h.payload fields hfields value hvalue
    exact ⟨account, hsub haccount, heq⟩

/-! ## Paths -/

theorem accountItems_of_mem {start : PyStr} (hstart : start ∈ accountPrefixes) (rest : PyStr) :
    accountItems (start ++ rest) =
      (rest.takeWhile fun c => c ≠ 0x2f ∧ c ≠ 0x3f).splitOn 0x2c := by
  simp only [accountPrefixes, List.mem_cons, List.not_mem_nil, or_false] at hstart
  rcases hstart with rfl | rfl <;> rfl

/-- **The accounts of a path** are the quotes of those it was formed of. -/
theorem accountItems_quoted {start suffix : PyStr} {accountIds paths : List PyStr}
    (hstart : start ∈ accountPrefixes) (hpaths : accountIds.mapM quote = some paths)
    (hne : accountIds ≠ []) :
    accountItems (start ++ join (str ",") paths ++ 0x2f :: suffix) = paths := by
  obtain ⟨hlength, hquoted⟩ := mapM_quote_some hpaths
  have hreserved : ∀ path ∈ paths, ∀ c ∈ path, c ≠ 0x2f ∧ c ≠ 0x2c ∧ c ≠ 0x3f := by
    intro path hpath
    obtain ⟨_, -, hquote⟩ := hquoted path hpath
    exact quote_reserved hquote
  have hjoined : ∀ c ∈ join (str ",") paths, decide (c ≠ 0x2f ∧ c ≠ 0x3f) = true := by
    intro c hc
    rcases mem_join hc with rfl | ⟨path, hpath, hc⟩
    · rfl
    · obtain ⟨hslash, -, hquery⟩ := hreserved path hpath c hc
      exact decide_eq_true ⟨hslash, hquery⟩
  have hpathsNe : paths ≠ [] := by
    intro hnil
    rw [hnil, List.length_nil] at hlength
    exact hne (List.length_eq_zero_iff.1 hlength.symm)
  have hcomma : ∀ path ∈ paths, 0x2c ∉ path :=
    fun path hpath hmem => (hreserved path hpath _ hmem).2.1 rfl
  rw [List.append_assoc, accountItems_of_mem hstart, List.takeWhile_append_of_pos hjoined]
  have hslash : (0x2f :: suffix).takeWhile (fun c => c ≠ 0x2f ∧ c ≠ 0x3f) = [] := by simp
  rw [hslash, List.append_nil]
  exact List.splitOn_intercalate 0x2c hcomma hpathsNe

/-- A path that is not one of an account's names none. -/
theorem namesOnly_request {config : TradeStationConfig} {accounts : List PyStr}
    {request : HTTPRequest} {path : PyStr} (hurl : request.url = config.baseUrl ++ path)
    (hpath : ∀ item ∈ accountItems path, ∃ account ∈ accounts, quote account = some item)
    (hpayload : ∀ fields, request.jsonBody = some fields → ∀ value,
      NodeAccount value (.obj fields) → ∃ account ∈ accounts, value = .str account) :
    NamesOnly config accounts request := by
  refine ⟨?_, ?_, hpayload⟩
  · rw [hurl]
    exact List.prefix_append _ _
  · rw [hurl, List.drop_left]
    exact hpath

/-! ## Payloads -/

theorem mem_field {name : String} {value : Option Json} {key : PyStr} {item : Json} :
    (key, item) ∈ field name value ↔ key = str name ∧ value = some item := by
  cases value with
  | none => simp [field]
  | some value =>
    simp only [field, Option.map_some, Option.toList_some, List.mem_singleton, Prod.mk.injEq,
      Option.some.injEq]
    exact and_congr_right fun _ => eq_comm

section
variable {lib : Library} {value : Json}

theorem accountID_mem_orderFields {fields : OrderFields} :
    (str "AccountID", value) ∈ orderFieldsPayload lib fields ↔ value = .str fields.accountId := by
  simp only [orderFieldsPayload, List.mem_append, mem_field, str_inj]
  simp [eq_comm]

theorem nodes_notMem_orderFields {fields : OrderFields} {key : PyStr}
    (hkey : key = str "Orders" ∨ key = str "OSOs") :
    (key, value) ∉ orderFieldsPayload lib fields := by
  rcases hkey with rfl | rfl <;>
    simp only [orderFieldsPayload, List.mem_append, mem_field, str_inj] <;> simp

mutual

/-- The order nodes of an order's payload carry the accounts of its nodes. -/
theorem nodeAccount_orderPayload : ∀ order : OrderRequest,
    NodeAccount value (.obj (orderPayload lib order)) →
      ∃ node ∈ order.nodes, value = .str node.accountId
  | .mk fields osos, h => by
    unfold orderPayload at h
    rw [OrderRequest.nodes]
    cases h with
    | node hmem =>
      refine ⟨fields, List.mem_cons_self, ?_⟩
      rcases List.mem_append.1 hmem with hmem | hmem
      · exact accountID_mem_orderFields.1 hmem
      · obtain ⟨hname, -⟩ := mem_field.1 hmem
        rw [str_inj] at hname
        simp at hname
    | under hmem hkey hitem =>
      rcases List.mem_append.1 hmem with hmem | hmem
      · exact absurd hmem (nodes_notMem_orderFields hkey)
      · obtain ⟨-, hosos⟩ := mem_field.1 hmem
        cases osos with
        | nil => cases hosos
        | cons oso osos =>
          cases hosos
          obtain ⟨node, hnode, heq⟩ := nodeAccount_orderPayloads (oso :: osos) hitem
          exact ⟨node, List.mem_cons_of_mem _ hnode, heq⟩

theorem nodeAccount_orderPayloads : ∀ orders : List OrderRequest,
    NodeAccount value (.arr (orderPayloads lib orders)) →
      ∃ node ∈ OrderRequest.nodesOf orders, value = .str node.accountId
  | [], h => by
    cases h with
    | item hmem hitem => cases hmem
  | order :: orders, h => by
    rw [orderPayloads] at h
    rw [OrderRequest.nodesOf]
    cases h with
    | item hmem hitem =>
      rcases List.mem_cons.1 hmem with rfl | hmem
      · obtain ⟨node, hnode, heq⟩ := nodeAccount_orderPayload order hitem
        exact ⟨node, List.mem_append_left _ hnode, heq⟩
      · obtain ⟨node, hnode, heq⟩ := nodeAccount_orderPayloads orders (.item hmem hitem)
        exact ⟨node, List.mem_append_right _ hnode, heq⟩

end

theorem nodeAccount_groupPayload (group : GroupOrderRequest)
    (h : NodeAccount value (.obj (groupOrderPayload lib group))) :
    ∃ node ∈ group.nodes, value = .str node.accountId := by
  unfold groupOrderPayload at h
  cases h with
  | node hmem =>
    simp only [List.mem_append, mem_field, str_inj] at hmem
    simp at hmem
  | under hmem hkey hitem =>
    rcases List.mem_append.1 hmem with hmem | hmem
    · obtain ⟨rfl, -⟩ := mem_field.1 hmem
      simp only [str_inj] at hkey
      simp at hkey
    · obtain ⟨-, horders⟩ := mem_field.1 hmem
      cases horders
      exact nodeAccount_orderPayloads group.orders hitem

/-- A payload without orders names no account. -/
theorem not_nodeAccount {fields : Json.Dict}
    (h : ∀ key item, (key, item) ∈ fields →
      key ≠ str "AccountID" ∧ key ≠ str "Orders" ∧ key ≠ str "OSOs") :
    ¬NodeAccount value (.obj fields) := by
  intro hvalue
  cases hvalue with
  | node hmem => exact (h _ _ hmem).1 rfl
  | under hmem hkey _ =>
    obtain ⟨-, horders, hosos⟩ := h _ _ hmem
    exact hkey.elim horders hosos

theorem not_nodeAccount_replacePayload (replacement : OrderReplaceRequest) :
    ¬NodeAccount value (.obj (replaceOrderPayload lib replacement)) := by
  apply not_nodeAccount
  intro key item hmem
  simp only [replaceOrderPayload, List.mem_append, mem_field] at hmem
  rcases hmem with (((⟨rfl, -⟩ | ⟨rfl, -⟩) | ⟨rfl, -⟩) | ⟨rfl, -⟩) | ⟨rfl, -⟩ <;>
    simp only [ne_eq, str_inj] <;> simp

theorem not_nodeAccount_riskRewardPayload (request : OptionRiskRewardRequest) :
    ¬NodeAccount value (.obj (optionRiskRewardPayload request)) := by
  apply not_nodeAccount
  intro key item hmem
  simp only [optionRiskRewardPayload, List.mem_append, mem_field] at hmem
  rcases hmem with ⟨rfl, -⟩ | ⟨rfl, -⟩ <;> simp only [ne_eq, str_inj] <;> simp

end

/-! ## What a request to the REST client names -/

/-- Awaiting the token provider or the transport. -/
def Op.Touches : Op → Prop
  | .provider _ | .send _ => True
  | _ => False

/-- The operation hands the transport no request but one that names none but these accounts. -/
def Op.Names (config : TradeStationConfig) (accounts : List PyStr) : Op → Prop
  | .send request => NamesOnly config accounts request
  | _ => True

section
variable (client : TradeStationClient) {accounts : List PyStr}

theorem only_requestJson_names {call : Call}
    (hcall : ∀ token, NamesOnly client.config accounts (client.rest.request call token)) :
    Coro.Only (Op.Names client.config accounts) (client.rest.requestJson call) := by
  refine (only_requestJson client.rest call).mono fun op hop => ?_
  cases hop with
  | send token => exact hcall token
  | _ => trivial

/-- A request whose path is none of an account's names the accounts of its payload. -/
theorem only_requestJson_unaccounted {call : Call} {rest : PyStr} (hpath : call.path = 0x2f :: rest)
    (hitems : accountItems call.path = [])
    (hpayload : ∀ fields, call.payload = some fields → ∀ value, NodeAccount value (.obj fields) →
      ∃ account ∈ accounts, value = .str account) :
    Coro.Only (Op.Names client.config accounts) (client.rest.requestJson call) := by
  apply only_requestJson_names
  intro token
  have hurl := url_slash client.rest hpath
  refine namesOnly_request hurl ?_ hpayload
  rw [hitems]
  simp

/-- Reading a path that is none of an account's. -/
theorem only_get_unaccounted {path rest : PyStr} (hpath : path = 0x2f :: rest)
    (hitems : accountItems path = []) :
    Coro.Only (Op.Names client.config accounts) (client.rest.get path) :=
  only_requestJson_unaccounted client hpath hitems (by simp)

variable {client}

/-- Behind the check of the accounts, a path that begins with them names no others. -/
theorem accountItems_accountPath {accountIds : List PyStr} {accountPath start suffix : PyStr}
    (h : client.accountPath accountIds = .ok accountPath) (hstart : start ∈ accountPrefixes) :
    ∀ item ∈ accountItems (start ++ accountPath ++ 0x2f :: suffix),
      ∃ account ∈ accountIds, quote account = some item := by
  obtain ⟨-, paths, hpaths, rfl⟩ := accountPath_ok h
  have hne : accountIds ≠ [] := by
    rintro rfl
    cases h
  rw [accountItems_quoted hstart hpaths hne]
  exact (mapM_quote_some hpaths).2

/-- Reading a path of some accounts. -/
theorem only_get_accounts {accountIds : List PyStr} {accountPath path : PyStr}
    (h : client.accountPath accountIds = .ok accountPath) (suffix : PyStr)
    (hpath : path = str "/brokerage/accounts/" ++ accountPath ++ 0x2f :: suffix) :
    Coro.Only (Op.Names client.config accountIds) (client.rest.get path) := by
  have hslash : path =
      0x2f :: (str "brokerage/accounts/" ++ accountPath ++ 0x2f :: suffix) := hpath
  have hurl := url_slash client.rest hslash
  apply only_requestJson_names
  intro token
  refine namesOnly_request hurl ?_ (by simp [RestClient.request])
  rw [hpath]
  exact accountItems_accountPath h (by simp [accountPrefixes])

theorem only_orderPages {P : Op → Prop} {basePath : PyStr} {params : QueryParams}
    (hget : ∀ params query, queryString client.lib params = .ok query →
      Coro.Only P (client.rest.get (basePath ++ query))) (pages : ℕ)
    (token : Option PyStr) (seen : List PyStr) (orders : List OrderSnapshot) :
    Coro.Only P (client.orderPages client.rest.get basePath params pages token seen orders) := by
  induction pages generalizing token seen orders with
  | zero => trivial
  | succ pages ih =>
    rw [TradeStationClient.orderPages]
    cases hpath : pagePath client.lib basePath params token with
    | error exc => trivial
    | ok path =>
      unfold pagePath at hpath
      cases hquery : queryString client.lib
          (params ++ (token.map fun token => (str "nextToken", some (.text token))).toList) with
      | error exc =>
        rw [hquery] at hpath
        cases hpath
      | ok query =>
        rw [hquery] at hpath
        cases hpath
        refine (hget _ query hquery).bind fun payload => ?_
        split
        · trivial
        · split
          · trivial
          · split
            · trivial
            · exact ih _ _ _

theorem only_readItems {P : Op → Prop} {model : ResponseModel} {key : String} {path : PyStr}
    (hget : Coro.Only P (client.rest.get path)) : Coro.Only P (client.readItems model key path) :=
  hget.bind fun _ => Coro.only_ofExcept _ _

/-! ## Bounded coroutines -/

/-- A coroutine reaches out only when all these accounts are allowed, and then its requests name no
others. -/
abbrev Bounded {α : Type} (client : TradeStationClient) (accounts : List PyStr) (p : Program α) :
    Prop :=
  Coro.Leads (¬Op.Touches ·)
    (fun _ tr _ => (∀ account ∈ accounts, account ∈ client.config.accountAllowlist) ∧
      ∀ event ∈ tr, event.op.Names client.config accounts) p

theorem bounded_here {α : Type} {p : Program α}
    (hallowed : ∀ account ∈ accounts, account ∈ client.config.accountAllowlist)
    (hnames : Coro.Only (Op.Names client.config accounts) p) : Bounded client accounts p :=
  Coro.leads_here fun _ _ hrun => ⟨hallowed, hnames.of_runs hrun⟩

/-- A coroutine without accounts. -/
theorem bounded_unaccounted {α : Type} {p : Program α}
    (hnames : Coro.Only (Op.Names client.config []) p) : Bounded client [] p :=
  bounded_here (by simp) hnames

theorem bounded_getOrdersById (accountIds orderIds : List PyStr) :
    Bounded client accountIds (client.getOrdersById accountIds orderIds) := by
  refine .check fun _ _ => .check fun accounts haccounts => .check fun orders _ => ?_
  refine bounded_here (accountPath_ok haccounts).1 (Coro.Only.bind ?_ fun _ => Coro.only_ofExcept _ _)
  apply only_get_accounts haccounts (str "orders/" ++ orders)
  rw [List.append_assoc]
  rfl

theorem bounded_getOrders (accountIds : List PyStr) (pageSize : Option ℤ) :
    Bounded client accountIds (client.getOrders accountIds pageSize) := by
  refine .check fun _ _ => .check fun accounts haccounts => .check fun validated _ => ?_
  refine bounded_here (accountPath_ok haccounts).1 (Coro.Only.bind ?_ fun _ => Coro.only_ofExcept _ _)
  refine only_orderPages (fun _ query _ => ?_) _ _ _ _
  apply only_get_accounts haccounts (str "orders" ++ query)
  rw [List.append_assoc]
  rfl

theorem bounded_getHistoricalOrders (accountIds : List PyStr) (since : Datetime)
    (pageSize : Option ℤ) :
    Bounded client accountIds (client.getHistoricalOrders accountIds since pageSize) := by
  refine .check fun _ _ => .check fun accounts haccounts => .check fun validated _ => ?_
  refine bounded_here (accountPath_ok haccounts).1 (Coro.Only.bind ?_ fun _ => Coro.only_ofExcept _ _)
  refine only_orderPages (fun _ query _ => ?_) _ _ _ _
  apply only_get_accounts haccounts (str "historicalorders" ++ query)
  rw [List.append_assoc]
  rfl

theorem bounded_getHistoricalOrdersById (accountIds orderIds : List PyStr) (since : Datetime) :
    Bounded client accountIds (client.getHistoricalOrdersById accountIds orderIds since) := by
  refine .check fun _ _ => .check fun accounts haccounts => .check fun orders _ =>
    .check fun query _ => ?_
  refine bounded_here (accountPath_ok haccounts).1 (Coro.Only.bind ?_ fun _ => Coro.only_ofExcept _ _)
  exact only_get_accounts haccounts (str "historicalorders/" ++ orders ++ query) rfl

theorem bounded_getBalances (accountIds : List PyStr) :
    Bounded client accountIds (client.getBalances accountIds) := by
  refine .check fun _ _ => .check fun accounts haccounts => ?_
  refine bounded_here (accountPath_ok haccounts).1 (only_readItems ?_)
  exact only_get_accounts haccounts (str "balances") rfl

theorem bounded_getBodBalances (accountIds : List PyStr) :
    Bounded client accountIds (client.getBodBalances accountIds) := by
  refine .check fun _ _ => .check fun accounts haccounts => ?_
  refine bounded_here (accountPath_ok haccounts).1 (only_readItems ?_)
  exact only_get_accounts haccounts (str "bodbalances") rfl

theorem bounded_getPositions (accountIds symbols : List PyStr) :
    Bounded client accountIds (client.getPositions accountIds symbols) := by
  refine .check fun _ _ => .check fun accounts haccounts => .check fun _ _ => .check fun query _ => ?_
  refine bounded_here (accountPath_ok haccounts).1 (only_readItems ?_)
  exact only_get_accounts haccounts (str "positions" ++ query) rfl

/-- The accounts of the nodes of an order. -/
def nodeAccounts (nodes : List OrderFields) : List PyStr := nodes.map (·.accountId)

theorem only_order_names {call : Call} {rest : PyStr} {order : OrderRequest}
    (hpath : call.path = 0x2f :: rest) (hitems : accountItems call.path = [])
    (hpayload : call.payload = some (orderPayload client.lib order)) :
    Coro.Only (Op.Names client.config (nodeAccounts order.nodes)) (client.rest.requestJson call) := by
  refine only_requestJson_unaccounted client hpath hitems fun fields hfields value hvalue => ?_
  rw [hpayload] at hfields
  cases hfields
  obtain ⟨node, hnode, heq⟩ := nodeAccount_orderPayload order hvalue
  exact ⟨node.accountId, List.mem_map_of_mem hnode, heq⟩

theorem only_group_names {call : Call} {rest : PyStr} {group : GroupOrderRequest}
    (hpath : call.path = 0x2f :: rest) (hitems : accountItems call.path = [])
    (hpayload : call.payload = some (groupOrderPayload client.lib group)) :
    Coro.Only (Op.Names client.config (nodeAccounts group.nodes)) (client.rest.requestJson call) := by
  refine only_requestJson_unaccounted client hpath hitems fun fields hfields value hvalue => ?_
  rw [hpayload] at hfields
  cases hfields
  obtain ⟨node, hnode, heq⟩ := nodeAccount_groupPayload group hvalue
  exact ⟨node.accountId, List.mem_map_of_mem hnode, heq⟩

theorem nodeAccounts_allowed {nodes : List OrderFields}
    (h : ∀ node ∈ nodes, NodeOk client.config node) :
    ∀ account ∈ nodeAccounts nodes, account ∈ client.config.accountAllowlist := by
  intro account haccount
  obtain ⟨node, hnode, rfl⟩ := List.mem_map.1 haccount
  exact (h node hnode).account

/-- Validation in front of what hands in an order. -/
theorem bounded_validated {α : Type} {order : OrderRequest} {p : Program α}
    (hnames : Coro.Only (Op.Names client.config (nodeAccounts order.nodes)) p) :
    Bounded client (nodeAccounts order.nodes)
      (validateOrderForConfig client.lib client.config order >>= fun _ => p) := by
  refine .bind (only_validateOrderForConfig (fun _ h => h) _ _ _) fun _ tr hok => ?_
  have hpasses := (runs_validateOrderForConfig_ok client.lib client.config order tr).1 hok
  exact bounded_here (nodeAccounts_allowed hpasses.1) hnames

theorem bounded_validatedGroup {α : Type} {group : GroupOrderRequest} {p : Program α}
    (hnames : Coro.Only (Op.Names client.config (nodeAccounts group.nodes)) p) :
    Bounded client (nodeAccounts group.nodes)
      (validateGroupForConfig client.lib client.config group >>= fun _ => p) := by
  refine .bind (only_validateOrdersForConfig (fun _ h => h) _ _ _) fun _ tr hok => ?_
  have hpasses := (runs_validateOrdersForConfig_ok client.lib client.config group.orders tr).1 hok
  exact bounded_here (nodeAccounts_allowed hpasses.1) hnames

theorem bounded_confirmOrder (order : OrderRequest) :
    Bounded client (nodeAccounts order.nodes) (client.confirmOrder order) := by
  refine .check fun _ _ => .check fun _ _ => bounded_validated ?_
  exact (only_order_names rfl rfl rfl).bind fun _ => Coro.only_ofExcept _ _

theorem bounded_placeOrder (order : OrderRequest) :
    Bounded client (nodeAccounts order.nodes) (client.placeOrder order) := by
  refine .check fun _ _ => .check fun _ _ => bounded_validated ?_
  exact only_settle (only_order_names rfl rfl rfl)

theorem bounded_confirmOrderGroup (group : GroupOrderRequest) :
    Bounded client (nodeAccounts group.nodes) (client.confirmOrderGroup group) := by
  refine .check fun _ _ => .check fun _ _ => .check fun _ _ => bounded_validatedGroup ?_
  exact (only_group_names rfl rfl rfl).bind fun _ => Coro.only_ofExcept _ _

theorem bounded_placeOrderGroup (group : GroupOrderRequest) :
    Bounded client (nodeAccounts group.nodes) (client.placeOrderGroup group) := by
  refine .check fun _ _ => .check fun _ _ => bounded_validatedGroup ?_
  exact only_settle (only_group_names rfl rfl rfl)

/-- The lookup of an order names its account. -/
theorem only_lookup_names (accountId orderId : PyStr) :
    Coro.Only (Op.Names client.config [accountId])
      (client.assertOrderBelongsToAccount accountId orderId) := by
  refine only_assertOrderBelongsToAccount client ?_
  refine .check fun _ _ => .check fun accounts haccounts => .check fun orders _ => ?_
  refine Coro.Only.bind ?_ fun _ => Coro.only_ofExcept _ _
  apply only_get_accounts haccounts (str "orders/" ++ orders)
  rw [List.append_assoc]
  rfl

theorem bounded_replaceOrder (accountId orderId : PyStr) (replacement : Replacement) :
    Bounded client [accountId] (client.replaceOrder accountId orderId replacement) := by
  refine .check fun _ _ => .check fun _ _ => .check fun _ _ => .bind ?_ fun _ tr hcan => ?_
  · exact only_assertCanSubmitOrders (fun _ h => h) client.lib client.config accountId
  obtain ⟨_, hallowed, -⟩ := Coro.runs_check_bind_ok.1 hcan
  have hmem := assertAccountAllowed_ok hallowed
  refine bounded_here (by simpa using hmem) (.check fun cleaned _ => ?_)
  refine (only_lookup_names accountId cleaned).bind fun _ => ?_
  split
  · trivial
  · next request _ =>
    refine .check fun _ _ => .check fun path _ => only_settle ?_
    refine only_requestJson_unaccounted client rfl rfl fun fields hfields value hvalue => ?_
    cases hfields
    exact absurd hvalue (not_nodeAccount_replacePayload request)

theorem bounded_cancelOrder (accountId orderId : PyStr) :
    Bounded client [accountId] (client.cancelOrder accountId orderId) := by
  refine .check fun _ _ => .check fun _ _ => .check fun _ hallowed => .check fun cleaned _ => ?_
  have hmem := assertAccountAllowed_ok hallowed
  refine bounded_here (by simpa using hmem) ?_
  refine (only_lookup_names accountId cleaned).bind fun _ => .check fun path _ => ?_
  exact only_requestJson_unaccounted client rfl rfl (by simp)

/-! ## Streams -/

/-- A method returns an iterator only when all these accounts are allowed, and what the iterator sends
names no others. -/
def BoundedStream (client : TradeStationClient) (accounts : List PyStr)
    (opened : Except Exc EventIterator) : Prop :=
  ∀ iterator, opened = .ok iterator →
    (∀ account ∈ accounts, account ∈ client.config.accountAllowlist) ∧
      ∀ worlds request, .source (.request request) ∈ (iterator worlds).1 →
        NamesOnly client.config accounts request

/-- What holds of whatever the second of two steps returns. -/
theorem forall_ok_bind {α β : Type} {P : β → Prop} {x : Except Exc α} {f : α → Except Exc β}
    (hf : ∀ a, x = .ok a → ∀ b, f a = .ok b → P b) : ∀ b, (x >>= f) = .ok b → P b := by
  intro b h
  cases x with
  | error exc => cases h
  | ok a => exact hf a rfl b h

theorem BoundedStream.check {α : Type} {x : Except Exc α} {f : α → Except Exc EventIterator}
    (hf : ∀ a, x = .ok a → BoundedStream client accounts (f a)) :
    BoundedStream client accounts (x >>= f) :=
  forall_ok_bind hf

theorem boundedStream_events {path accept rest : PyStr} {raiseOnError : Bool}
    (hallowed : ∀ account ∈ accounts, account ∈ client.config.accountAllowlist)
    (hpath : path = 0x2f :: rest)
    (hitems : ∀ item ∈ accountItems path, ∃ account ∈ accounts, quote account = some item) :
    BoundedStream client accounts (.ok (client.rest.streamEvents path accept raiseOnError)) := by
  intro iterator h
  cases h
  refine ⟨hallowed, fun worlds request hmem => ?_⟩
  obtain ⟨token, rfl⟩ := client.rest.streamEvents_request hmem
  have hurl := url_slash client.rest hpath
  exact namesOnly_request hurl hitems (by simp [RestClient.streamRequest])

theorem boundedStream_accounts {accountIds : List PyStr} {accountPath path accept : PyStr}
    {raiseOnError : Bool} (h : client.accountPath accountIds = .ok accountPath) (suffix : PyStr)
    (hpath : path = str "/brokerage/stream/accounts/" ++ accountPath ++ 0x2f :: suffix) :
    BoundedStream client accountIds
      (.ok (client.rest.streamEvents path accept raiseOnError)) := by
  have hslash : path =
      0x2f :: (str "brokerage/stream/accounts/" ++ accountPath ++ 0x2f :: suffix) := hpath
  refine boundedStream_events (accountPath_ok h).1 hslash ?_
  rw [hpath]
  exact accountItems_accountPath h (by simp [accountPrefixes])

theorem boundedStream_unaccounted {path accept rest : PyStr} {raiseOnError : Bool}
    (hpath : path = 0x2f :: rest) (hitems : accountItems path = []) :
    BoundedStream client [] (.ok (client.rest.streamEvents path accept raiseOnError)) :=
  boundedStream_events (by simp) hpath (by simp [hitems])

end

/-! ## Every method -/

/-- A call of a public method. -/
inductive PublicCall
  | getAccounts
  | getBalances (accountIds : List PyStr)
  | getBodBalances (accountIds : List PyStr)
  | getPositions (accountIds symbols : List PyStr)
  | getOrders (accountIds : List PyStr) (pageSize : Option ℤ)
  | getOrdersById (accountIds orderIds : List PyStr)
  | getHistoricalOrders (accountIds : List PyStr) (since : Datetime) (pageSize : Option ℤ)
  | getHistoricalOrdersById (accountIds orderIds : List PyStr) (since : Datetime)
  | fetchStateSnapshot (accountIds : List PyStr)
  | confirmOrder (order : OrderRequest)
  | whatIfOrder (order : OrderRequest)
  | placeOrder (order : OrderRequest)
  | confirmOrderGroup (group : GroupOrderRequest)
  | whatIfOrderGroup (group : GroupOrderRequest)
  | placeOrderGroup (group : GroupOrderRequest)
  | replaceOrder (accountId orderId : PyStr) (replacement : Replacement)
  | cancelOrder (accountId orderId : PyStr)
  | getRoutes
  | getActivationTriggers
  | getCryptoSymbolNames
  | getQuotes (symbols : List PyStr)
  | getSymbols (symbols : List PyStr)
  | getOptionExpirations (underlying : PyStr) (strikePrice : Option Decimal)
  | getOptionSpreadTypes
  | getOptionStrikes (underlying : PyStr) (spreadType : Option PyStr) (strikeInterval : Option ℤ)
      (expiration expiration2 : Option QueryValue)
  | getOptionRiskReward (request : OptionRiskRewardRequest)
  | getBars (symbol : PyStr) (params : QueryParams)
  | streamOrders (accountIds : List PyStr) (raiseOnError : Bool)
  | streamOrdersById (accountIds orderIds : List PyStr) (raiseOnError : Bool)
  | streamPositions (accountIds : List PyStr) (raiseOnError : Bool)
  | streamQuotes (symbols : List PyStr) (raiseOnError : Bool)
  | streamBars (symbol : PyStr) (params : QueryParams) (raiseOnError : Bool)
  | streamMarketDepthAggregates (symbol : PyStr) (maxLevels : Option ℤ) (raiseOnError : Bool)
  | streamMarketDepthQuotes (symbol : PyStr) (maxLevels : Option ℤ) (raiseOnError : Bool)
  | streamOptionChain (underlying : PyStr) (params : QueryParams) (raiseOnError : Bool)
  | streamOptionQuotes (legs : List OptionQuoteLeg) (riskFreeRate : Option Decimal)
      (enableGreeks : Option Bool) (raiseOnError : Bool)
  | orderPayloadHash (order : OrderRequest)
  /-- `aclose`, also as the end of an `async with`. It closes the transport. -/
  | aclose

/-- How a method is carried out. -/
inductive Conduct : Type 1
  | coroutine {α : Type} (p : Program α)
  | stream (opened : Except Exc EventIterator)
  | snapshot (accountIds : List PyStr)
  /-- No token is asked for, and nothing is sent. -/
  | offline

namespace PublicCall

/-- The accounts that a call reads, or hands in orders for. -/
def accounts : PublicCall → List PyStr
  | getBalances accountIds | getBodBalances accountIds | getPositions accountIds _
  | getOrders accountIds _ | getOrdersById accountIds _ | getHistoricalOrders accountIds _ _
  | getHistoricalOrdersById accountIds _ _ | fetchStateSnapshot accountIds
  | streamOrders accountIds _ | streamOrdersById accountIds _ _ | streamPositions accountIds _ =>
    accountIds
  | confirmOrder order | whatIfOrder order | placeOrder order => nodeAccounts order.nodes
  | confirmOrderGroup group | whatIfOrderGroup group | placeOrderGroup group =>
    nodeAccounts group.nodes
  | replaceOrder accountId _ _ | cancelOrder accountId _ => [accountId]
  | _ => []

/-- The method of a call. -/
def conduct (client : TradeStationClient) : PublicCall → Conduct
  | getAccounts => .coroutine client.getAccounts
  | getBalances accountIds => .coroutine (client.getBalances accountIds)
  | getBodBalances accountIds => .coroutine (client.getBodBalances accountIds)
  | getPositions accountIds symbols => .coroutine (client.getPositions accountIds symbols)
  | getOrders accountIds pageSize => .coroutine (client.getOrders accountIds pageSize)
  | getOrdersById accountIds orderIds => .coroutine (client.getOrdersById accountIds orderIds)
  | getHistoricalOrders accountIds since pageSize =>
    .coroutine (client.getHistoricalOrders accountIds since pageSize)
  | getHistoricalOrdersById accountIds orderIds since =>
    .coroutine (client.getHistoricalOrdersById accountIds orderIds since)
  | fetchStateSnapshot accountIds => .snapshot accountIds
  | confirmOrder order => .coroutine (client.confirmOrder order)
  | whatIfOrder order => .coroutine (client.whatIfOrder order)
  | placeOrder order => .coroutine (client.placeOrder order)
  | confirmOrderGroup group => .coroutine (client.confirmOrderGroup group)
  | whatIfOrderGroup group => .coroutine (client.whatIfOrderGroup group)
  | placeOrderGroup group => .coroutine (client.placeOrderGroup group)
  | replaceOrder accountId orderId replacement =>
    .coroutine (client.replaceOrder accountId orderId replacement)
  | cancelOrder accountId orderId => .coroutine (client.cancelOrder accountId orderId)
  | getRoutes => .coroutine client.getRoutes
  | getActivationTriggers => .coroutine client.getActivationTriggers
  | getCryptoSymbolNames => .coroutine client.getCryptoSymbolNames
  | getQuotes symbols => .coroutine (client.getQuotes symbols)
  | getSymbols symbols => .coroutine (client.getSymbols symbols)
  | getOptionExpirations underlying strikePrice =>
    .coroutine (client.getOptionExpirations underlying strikePrice)
  | getOptionSpreadTypes => .coroutine client.getOptionSpreadTypes
  | getOptionStrikes underlying spreadType strikeInterval expiration expiration2 =>
    .coroutine (client.getOptionStrikes underlying spreadType strikeInterval expiration expiration2)
  | getOptionRiskReward request => .coroutine (client.getOptionRiskReward request)
  | getBars symbol params => .coroutine (client.getBars symbol params)
  | streamOrders accountIds raiseOnError => .stream (client.streamOrders accountIds raiseOnError)
  | streamOrdersById accountIds orderIds raiseOnError =>
    .stream (client.streamOrdersById accountIds orderIds raiseOnError)
  | streamPositions accountIds raiseOnError =>
    .stream (client.streamPositions accountIds raiseOnError)
  | streamQuotes symbols raiseOnError => .stream (client.streamQuotes symbols raiseOnError)
  | streamBars symbol params raiseOnError => .stream (client.streamBars symbol params raiseOnError)
  | streamMarketDepthAggregates symbol maxLevels raiseOnError =>
    .stream (client.streamMarketDepthAggregates symbol maxLevels raiseOnError)
  | streamMarketDepthQuotes symbol maxLevels raiseOnError =>
    .stream (client.streamMarketDepthQuotes symbol maxLevels raiseOnError)
  | streamOptionChain underlying params raiseOnError =>
    .stream (client.streamOptionChain underlying params raiseOnError)
  | streamOptionQuotes legs riskFreeRate enableGreeks raiseOnError =>
    .stream (client.streamOptionQuotes legs riskFreeRate enableGreeks raiseOnError)
  | orderPayloadHash _ => .offline
  | aclose => .offline

end PublicCall

/-- What bounds a method. -/
def Conduct.Bounded (client : TradeStationClient) (accounts : List PyStr) : Conduct → Prop
  | .coroutine p => TradeStation.Bounded client accounts p
  | .stream opened => BoundedStream client accounts opened
  | .snapshot accountIds => accountIds = accounts
  | .offline => accounts = []

/-- **Every method is bounded** by the accounts it is called with. -/
theorem bounded (client : TradeStationClient) (call : PublicCall) :
    (call.conduct client).Bounded client call.accounts := by
  cases call with
  | getBalances accountIds => exact bounded_getBalances accountIds
  | getBodBalances accountIds => exact bounded_getBodBalances accountIds
  | getPositions accountIds symbols => exact bounded_getPositions accountIds symbols
  | getOrders accountIds pageSize => exact bounded_getOrders accountIds pageSize
  | getOrdersById accountIds orderIds => exact bounded_getOrdersById accountIds orderIds
  | getHistoricalOrders accountIds since pageSize =>
    exact bounded_getHistoricalOrders accountIds since pageSize
  | getHistoricalOrdersById accountIds orderIds since =>
    exact bounded_getHistoricalOrdersById accountIds orderIds since
  | fetchStateSnapshot | orderPayloadHash | aclose => rfl
  | confirmOrder order | whatIfOrder order => exact bounded_confirmOrder order
  | placeOrder order => exact bounded_placeOrder order
  | confirmOrderGroup group | whatIfOrderGroup group => exact bounded_confirmOrderGroup group
  | placeOrderGroup group => exact bounded_placeOrderGroup group
  | replaceOrder accountId orderId replacement =>
    exact bounded_replaceOrder accountId orderId replacement
  | cancelOrder accountId orderId => exact bounded_cancelOrder accountId orderId
  | getAccounts | getOptionSpreadTypes =>
    exact bounded_unaccounted (.check fun _ _ => only_readItems (only_get_unaccounted client rfl rfl))
  | getRoutes | getActivationTriggers =>
    exact bounded_unaccounted (.check fun _ _ => only_get_unaccounted client rfl rfl)
  | getCryptoSymbolNames =>
    refine bounded_unaccounted (.check fun _ _ => ?_)
    refine (only_get_unaccounted client rfl rfl).bind fun _ => ?_
    split <;> trivial
  | getQuotes | getSymbols =>
    exact bounded_unaccounted (.check fun _ _ => .check fun _ _ =>
      only_readItems (only_get_unaccounted client rfl rfl))
  | getOptionExpirations | getBars =>
    exact bounded_unaccounted (.check fun _ _ => .check fun _ _ => .check fun _ _ =>
      only_readItems (only_get_unaccounted client rfl rfl))
  | getOptionStrikes =>
    exact bounded_unaccounted (.check fun _ _ => .check fun _ _ => .check fun _ _ =>
      (only_get_unaccounted client rfl rfl).bind fun _ => Coro.only_ofExcept _ _)
  | getOptionRiskReward request =>
    refine bounded_unaccounted (.check fun _ _ => ?_)
    refine Coro.Only.bind ?_ fun _ => Coro.only_ofExcept _ _
    refine only_requestJson_unaccounted client rfl rfl fun fields hfields value hvalue => ?_
    cases hfields
    exact absurd hvalue (not_nodeAccount_riskRewardPayload request)
  | streamOrders | streamPositions =>
    exact .check fun _ _ => .check fun _ _ => .check fun _ haccounts =>
      boundedStream_accounts haccounts _ rfl
  | streamOrdersById =>
    exact .check fun _ _ => .check fun _ _ => .check fun _ haccounts => .check fun _ _ =>
      boundedStream_accounts haccounts _ rfl
  | streamQuotes =>
    exact .check fun _ _ => .check fun _ _ => .check fun _ _ => boundedStream_unaccounted rfl rfl
  | streamBars | streamOptionChain =>
    exact .check fun _ _ => .check fun _ _ => .check fun _ _ => .check fun _ _ =>
      boundedStream_unaccounted rfl rfl
  | streamMarketDepthAggregates | streamMarketDepthQuotes =>
    exact .check fun _ _ => .check fun _ _ => .check fun _ _ => .check fun _ _ =>
      .check fun _ _ => boundedStream_unaccounted rfl rfl
  | streamOptionQuotes legs =>
    refine .check fun _ _ => .check fun _ _ => ?_
    by_cases hlegs : legs = []
    · intro iterator h
      rw [if_pos hlegs] at h
      cases h
    · rw [if_neg hlegs]
      exact .check fun _ _ => boundedStream_unaccounted rfl rfl

/-! ## Every call -/

/-- A contact with the token provider or the transport. -/
inductive Contact
  | token (method : ProviderMethod)
  | sent (request : HTTPRequest)

/-- The contact that an operation is. -/
def Op.contact : Op → Option Contact
  | .provider method => some (.token method)
  | .send request => some (.sent request)
  | _ => none

/-- The contacts of a trace. -/
def contacts (tr : Trace Op Op.Answer) : List Contact := tr.filterMap fun event => event.op.contact

/-- The contact that an action of a stream is. -/
def streamContact : Action StreamEffect → Option Contact
  | .source .getAccessToken => some (.token .getAccessToken)
  | .source .refresh => some (.token .forceRefreshAccessToken)
  | .source (.request request) => some (.sent request)
  | _ => none

/-- What may come of a method: its contacts, and whether the call returns or raises. A stream makes
its contacts as far as the caller iterates. -/
def Conduct.Performs (client : TradeStationClient) :
    Conduct → List Contact → Except Exc Unit → Prop
  | .coroutine p, log, r =>
    ∃ tr r', Coro.Runs p tr r' ∧ log = contacts tr ∧ r = r'.map fun _ => ()
  | .stream (.error exc), log, r => log = [] ∧ r = .error exc
  | .stream (.ok iterator), log, r =>
    r = .ok () ∧ ∃ worlds, log <+: (iterator worlds).1.filterMap streamContact
  | .snapshot accountIds, log, r =>
    ∃ tr r', client.FetchesStateSnapshot accountIds tr r' ∧ log = contacts tr ∧
      r = r'.map fun _ => ()
  | .offline, log, _ => log = []

/-- The requests of a call name none but its accounts, which are all allowed; if one of them is not,
the call raises, and asks for no token and sends nothing. -/
structure Allowlisted (client : TradeStationClient) (accounts : List PyStr) (log : List Contact)
    (r : Except Exc Unit) : Prop where
  named : ∀ request, .sent request ∈ log → NamesOnly client.config accounts request
  allowed : ∀ request, .sent request ∈ log →
    NamesOnly client.config client.config.accountAllowlist request
  stopped : (∃ account ∈ accounts, account ∉ client.config.accountAllowlist) →
    log = [] ∧ ∃ exc, r = .error exc

section
variable {client : TradeStationClient} {accounts : List PyStr}

theorem sent_mem_contacts {tr : Trace Op Op.Answer} {request : HTTPRequest}
    (h : .sent request ∈ contacts tr) : ∃ event ∈ tr, event.op = .send request := by
  obtain ⟨event, hevent, hcontact⟩ := List.mem_filterMap.1 h
  refine ⟨event, hevent, ?_⟩
  rcases event with ⟨op, answer⟩
  cases op with
  | send request' =>
    cases hcontact
    rfl
  | _ => cases hcontact

theorem sent_mem_streamContacts {actions : List (Action StreamEffect)} {request : HTTPRequest}
    (h : .sent request ∈ actions.filterMap streamContact) :
    .source (.request request) ∈ actions := by
  obtain ⟨action, haction, hcontact⟩ := List.mem_filterMap.1 h
  unfold streamContact at hcontact
  split at hcontact
  · cases hcontact
  · cases hcontact
  · cases hcontact
    exact haction
  · cases hcontact

theorem contacts_eq_nil {tr : Trace Op Op.Answer} (h : ∀ event ∈ tr, ¬event.op.Touches) :
    contacts tr = [] := by
  apply List.filterMap_eq_nil_iff.2
  intro event hevent
  have htouches := h event hevent
  rcases event with ⟨op, answer⟩
  cases op with
  | provider | send => exact absurd trivial htouches
  | _ => rfl

theorem Allowlisted.of_named {log : List Contact} {r : Except Exc Unit}
    (hnamed : ∀ request, .sent request ∈ log → NamesOnly client.config accounts request)
    (hallowed : ∀ account ∈ accounts, account ∈ client.config.accountAllowlist) :
    Allowlisted client accounts log r := by
  refine ⟨hnamed, fun request hrequest => (hnamed request hrequest).mono hallowed, ?_⟩
  rintro ⟨account, haccount, hnot⟩
  exact absurd (hallowed account haccount) hnot

theorem Allowlisted.of_raised {log : List Contact} {r : Except Exc Unit} (hlog : log = [])
    (hr : ∃ exc, r = .error exc) : Allowlisted client accounts log r := by
  subst hlog
  exact ⟨by simp, by simp, fun _ => ⟨rfl, hr⟩⟩

/-- A trace that names the accounts. -/
theorem named_contacts {tr : Trace Op Op.Answer}
    (h : ∀ event ∈ tr, event.op.Names client.config accounts) :
    ∀ request, .sent request ∈ contacts tr → NamesOnly client.config accounts request := by
  intro request hrequest
  obtain ⟨event, hevent, hop⟩ := sent_mem_contacts hrequest
  have hnames := h event hevent
  rw [hop] at hnames
  exact hnames

/-- A bounded coroutine names only its accounts. -/
theorem Bounded.names {α : Type} {p : Program α} (h : Bounded client accounts p)
    {tr : Trace Op Op.Answer} {r : Except Exc α} (hrun : Coro.Runs p tr r) :
    ∀ event ∈ tr, event.op.Names client.config accounts := by
  have hquiet : ∀ event : Event Op Op.Answer, ¬event.op.Touches →
      event.op.Names client.config accounts := by
    rintro ⟨op, answer⟩ htouches
    cases op with
    | send => exact absurd trivial htouches
    | _ => trivial
  rcases h tr r hrun with ⟨-, hnone⟩ | ⟨tr₁, tr₂, rfl, hnone, -, hnames⟩
  · exact fun event hevent => hquiet event (hnone event hevent)
  · intro event hevent
    rcases List.mem_append.1 hevent with hevent | hevent
    · exact hquiet event (hnone event hevent)
    · exact hnames event hevent

theorem allowlisted_coroutine {α : Type} {p : Program α} (h : Bounded client accounts p)
    {tr : Trace Op Op.Answer} {r : Except Exc α} (hrun : Coro.Runs p tr r) :
    Allowlisted client accounts (contacts tr) (r.map fun _ => ()) := by
  have hnamed := named_contacts (h.names hrun)
  rcases h tr r hrun with ⟨⟨exc, rfl⟩, hnone⟩ | ⟨tr₁, tr₂, rfl, -, hallowed, -⟩
  · exact .of_raised (contacts_eq_nil hnone) ⟨exc, rfl⟩
  · exact .of_named hnamed hallowed

theorem allowlisted_snapshot {tr : Trace Op Op.Answer} {r : Except Exc AccountStateSnapshot}
    (h : client.FetchesStateSnapshot accounts tr r) :
    Allowlisted client accounts (contacts tr) (r.map fun _ => ()) := by
  unfold TradeStationClient.FetchesStateSnapshot at h
  cases hpath : client.accountPath accounts with
  | error exc =>
    rw [hpath] at h
    obtain ⟨rfl, rfl⟩ := h
    exact .of_raised rfl ⟨exc, rfl⟩
  | ok path =>
    rw [hpath] at h
    obtain ⟨r', hgather, -⟩ := h
    have haccounts : Bounded client accounts client.getAccounts :=
      bounded_here (accountPath_ok hpath).1
        (.check fun _ _ => only_readItems (only_get_unaccounted client rfl rfl))
    have hnames : ∀ event ∈ tr, event.op.Names client.config accounts := by
      refine hgather.forall_mem (fun tr r => haccounts.names) fun tr r h => ?_
      refine h.forall_mem (fun tr r => (bounded_getBalances accounts).names) fun tr r h => ?_
      exact h.forall_mem (fun tr r => (bounded_getPositions accounts []).names)
        fun tr r => (bounded_getOrders accounts none).names
    exact .of_named (named_contacts hnames) (accountPath_ok hpath).1

theorem allowlisted_stream {iterator : EventIterator}
    (h : BoundedStream client accounts (.ok iterator)) {worlds : List StreamWorld}
    {log : List Contact} (hlog : log <+: (iterator worlds).1.filterMap streamContact) :
    Allowlisted client accounts log (.ok ()) := by
  obtain ⟨hallowed, hnames⟩ := h iterator rfl
  refine .of_named (fun request hrequest => ?_) hallowed
  exact hnames worlds request (sent_mem_streamContacts (hlog.subset hrequest))

end

/-- **The allowlist is a hard boundary.** Whatever public method is called, and however the parties
answer, every request that is handed to the transport names none but allowed accounts, in its path and
at every order node of its payload. If the call is for an account that is not allowed, it raises before
the token provider or the transport is touched. -/
theorem allowlist_boundary (client : TradeStationClient) (call : PublicCall) (log : List Contact)
    (r : Except Exc Unit) (h : (call.conduct client).Performs client log r) :
    Allowlisted client call.accounts log r := by
  have hbounded := bounded client call
  cases hconduct : call.conduct client with
  | coroutine p =>
    rw [hconduct] at h hbounded
    obtain ⟨tr, r', hrun, rfl, rfl⟩ := h
    exact allowlisted_coroutine hbounded hrun
  | stream opened =>
    rw [hconduct] at h hbounded
    cases opened with
    | error exc =>
      obtain ⟨rfl, rfl⟩ := h
      exact .of_raised rfl ⟨exc, rfl⟩
    | ok iterator =>
      obtain ⟨rfl, worlds, hlog⟩ := h
      exact allowlisted_stream hbounded hlog
  | snapshot accountIds =>
    rw [hconduct] at h hbounded
    obtain ⟨tr, r', hfetches, rfl, rfl⟩ := h
    obtain rfl : accountIds = call.accounts := hbounded
    exact allowlisted_snapshot hfetches
  | offline =>
    rw [hconduct] at h hbounded
    obtain rfl : log = [] := h
    have hnone : call.accounts = [] := hbounded
    rw [hnone]
    exact .of_named (by simp) (by simp)

theorem runs_readItems {client : TradeStationClient} (model : ResponseModel) (key : String)
    {path : PyStr} {tr : Trace Op Op.Answer} {payload : Json.Dict}
    (hget : Coro.Runs (client.rest.get path) tr (.ok payload)) :
    Coro.Runs (client.readItems model key path) tr (client.validatedItems model key payload) :=
  hget.bind_ofExcept _

/-- Reading the balances of the one account that the simulator may be asked about. -/
theorem performs_balances :
    (PublicCall.conduct simTradeClient (.getBalances [str "SIM1"])).Performs simTradeClient
      [.token .getAccessToken, .sent (simTradeClient.rest.request
        { method := str "GET", path := str "/brokerage/accounts/SIM1/balances", retrySafe := true }
        (str "T"))] (.ok ()) := by
  have hbody : (⟨200, [], ascii "\x7b\x7d"⟩ : HTTPResponse).json = some (.obj []) := by
    rfl
  have hscope : simTradeClient.requireScope readAccountScope = .ok () := rfl
  have haccounts : simTradeClient.accountPath [str "SIM1"] = .ok (str "SIM1") := rfl
  have hread : simTradeClient.getBalances [str "SIM1"] = simTradeClient.readItems .balanceSnapshot
      "Balances" (str "/brokerage/accounts/SIM1/balances") := by
    unfold TradeStationClient.getBalances
    simp only [hscope, haccounts, Coro.ofExcept_ok, Coro.ret_bind]
    rfl
  have hget := runs_requestJson_answered hbody simTradeClient.rest
    { method := str "GET", path := str "/brokerage/accounts/SIM1/balances", retrySafe := true }
  have hrun := runs_readItems .balanceSnapshot "Balances" hget
  rw [← hread] at hrun
  exact ⟨_, _, hrun, rfl, rfl⟩

theorem allowlist_boundary_balances :
    Allowlisted simTradeClient [str "SIM1"]
      [.token .getAccessToken, .sent (simTradeClient.rest.request
        { method := str "GET", path := str "/brokerage/accounts/SIM1/balances", retrySafe := true }
        (str "T"))] (.ok ()) :=
  allowlist_boundary simTradeClient (.getBalances [str "SIM1"]) _ _ performs_balances

end TradeStation
