import TradeStation.Client
import TradeStation.Foundations.Pagination
import TradeStation.Submissions

/-!
# Pages of orders

`_get_order_pages` follows the `NextToken` of one page to the next, for no more pages than the client
allows and not twice to the same token. It does the same with any `get`; `Server` is one that
answers every request, knowing all that were made.

`orderPages_eq_walk` says that against a server it is the bounded walk along the server's chain, and
`getOrderPages_complete` reads off that it returns all orders of the chain or raises.
-/

namespace TradeStation

open Python Foundations

/-! ## Queries -/

/-- What is put in a query. The value of an enumeration is its text. -/
inductive QueryValue
  | text (s : PyStr)
  | int (n : ℤ)
  | bool (b : Bool)
  | decimal (d : Decimal)
  | datetime (t : Datetime)
  | date (day : ℤ)

/-- `_query_value`, as the text that `urlencode` makes of it. -/
def queryValue (lib : Library) : QueryValue → PyStr
  | .text s => s
  | .int n => str (toString n)
  | .bool b => if b then str "true" else str "false"
  | .decimal d => d.fixedPoint
  | .datetime t => lib.datetimeIsoformat t
  | .date day => lib.dateIsoformat day

/-- Parameters of a query, by name. -/
abbrev QueryParams := List (PyStr × Option QueryValue)

/-- `_query_string`. -/
def queryString (lib : Library) (params : QueryParams) : Except Exc PyStr :=
  let present := params.filterMap fun p => p.2.map fun value => (p.1, queryValue lib value)
  if present = [] then .ok []
  else
    match urlencode present with
    | none => .error (.value (str "surrogates not allowed"))
    | some query => .ok (str "?" ++ query)

/-! ## `_get_order_pages` -/

/-- The `NextToken` of a page, where it is a string that is not blank. -/
def nextToken (payload : Json.Dict) : Option PyStr :=
  match Json.get payload (str "NextToken") with
  | some (.str token) => if strip token = [] then none else some token
  | _ => none

/-- The path of the request for a page. -/
def pagePath (lib : Library) (basePath : PyStr) (params : QueryParams) (token : Option PyStr) :
    Except Exc PyStr := do
  let query ← queryString lib
    (params ++ (token.map fun token => (str "nextToken", some (.text token))).toList)
  return basePath ++ query

namespace TradeStationClient

variable (client : TradeStationClient) {m : Type → Type} [Monad m]

/-- The loop of `_get_order_pages`. -/
def orderPages (get : PyStr → m Json.Dict) (basePath : PyStr) (params : QueryParams) :
    ℕ → Option PyStr → List PyStr → List OrderSnapshot → m (Except Exc (List OrderSnapshot))
  | 0, _, _, _ =>
    return .error (.pagination
      (str "TradeStation order pagination exceeded the page safety limit"))
  | pages + 1, token, seenTokens, orders =>
    match pagePath client.lib basePath params token with
    | .error exc => return .error exc
    | .ok path => do
      let payload ← get path
      match client.orderSnapshots payload with
      | .error exc => return .error exc
      | .ok snapshots =>
        match nextToken payload with
        | none => return .ok (orders ++ snapshots)
        | some next =>
          if next ∈ seenTokens then
            return .error (.pagination
              (str "TradeStation order pagination repeated a page token"))
          else
            orderPages get basePath params pages (some next) (next :: seenTokens)
              (orders ++ snapshots)

/-- `_get_order_pages`. -/
def getOrderPages (get : PyStr → m Json.Dict) (basePath : PyStr) (params : QueryParams) :
    m (Except Exc (List OrderSnapshot)) :=
  client.orderPages get basePath params client.maxOrderPages none [] []

end TradeStationClient

/-! ## Servers -/

/-- What a server answers to the last of some requests. -/
abbrev Server := List PyStr → Json.Dict

/-- A `get` that always succeeds: the server answers, and remembers. -/
def Server.get (server : Server) (path : PyStr) : StateM (List PyStr) Json.Dict := do
  modify fun requests => requests ++ [path]
  return server (← MonadState.get)

theorem Server.run_get_bind {α : Type} (server : Server) (path : PyStr)
    (f : Json.Dict → StateM (List PyStr) α) (requests : List PyStr) :
    (server.get path >>= f).run requests =
      (f (server (requests ++ [path]))).run (requests ++ [path]) := rfl

/-- The chain of pages that a server makes of a path and its parameters. -/
def Server.pages (server : Server) (lib : Library) (basePath : PyStr) (params : QueryParams) :
    PageSource PyStr PyStr Json.Dict where
  request token := (pagePath lib basePath params token).toOption
  answer := server
  next := nextToken

/-- Every page is a list of valid order snapshots. -/
def Server.Valid (server : Server) (client : TradeStationClient) : Prop :=
  ∀ requests, ∃ snapshots, client.orderSnapshots (server requests) = .ok snapshots

section
variable (client : TradeStationClient)

/-- The orders of a page. -/
def TradeStationClient.ordersOf (page : Json.Dict) : List OrderSnapshot :=
  ((client.orderSnapshots page).toOption).getD []

/-- How `_get_order_pages` ends where a walk does. -/
def TradeStationClient.pagesEnd (orders : List OrderSnapshot) :
    WalkEnd Json.Dict → Except Exc (List OrderSnapshot)
  | .complete pages => .ok (orders ++ pages.flatMap client.ordersOf)
  | .repeated => .error (.pagination
      (str "TradeStation order pagination repeated a page token"))
  | .exceeded => .error (.pagination
      (str "TradeStation order pagination exceeded the page safety limit"))
  | .unasked => .error (.value (str "surrogates not allowed"))

theorem pagesEnd_behind (orders : List OrderSnapshot) (page : Json.Dict)
    (e : WalkEnd Json.Dict) :
    client.pagesEnd orders (e.behind page) =
      client.pagesEnd (orders ++ client.ordersOf page) e := by
  cases e <;> simp [WalkEnd.behind, TradeStationClient.pagesEnd]

theorem pagePath_error {lib : Library} {basePath : PyStr} {params : QueryParams}
    {token : Option PyStr} {exc : Exc} (h : pagePath lib basePath params token = .error exc) :
    exc = .value (str "surrogates not allowed") := by
  unfold pagePath queryString at h
  dsimp only at h
  split at h
  · cases h
  · split at h
    · cases h
      rfl
    · cases h

/-- **The loop is the walk.** -/
theorem orderPages_eq_walk (server : Server) (hvalid : server.Valid client) (basePath : PyStr)
    (params : QueryParams) (n : ℕ) (history : List PyStr) (token : Option PyStr)
    (seen : List PyStr) (orders : List OrderSnapshot) :
    (client.orderPages server.get basePath params n token seen orders).run history =
      let walked := (server.pages client.lib basePath params).walk n history token seen
      (client.pagesEnd orders walked.1, walked.2) := by
  induction n generalizing history token seen orders with
  | zero => rfl
  | succ n ih =>
    rw [TradeStationClient.orderPages, PageSource.walk]
    cases hpath : pagePath client.lib basePath params token with
    | error exc =>
      have hrequest : (server.pages client.lib basePath params).request token = none := by
        simp [Server.pages, hpath, Except.toOption]
      rw [hrequest, pagePath_error hpath]
      rfl
    | ok path =>
      have hrequest : (server.pages client.lib basePath params).request token = some path := by
        simp [Server.pages, hpath, Except.toOption]
      obtain ⟨snapshots, hsnapshots⟩ := hvalid (history ++ [path])
      have horders : client.ordersOf (server (history ++ [path])) = snapshots := by
        simp [TradeStationClient.ordersOf, hsnapshots, Except.toOption]
      have hanswer : (server.pages client.lib basePath params).answer (history ++ [path]) =
          server (history ++ [path]) := rfl
      have hnextToken : (server.pages client.lib basePath params).next = nextToken := rfl
      rw [hrequest]
      simp only [Server.run_get_bind, hsnapshots, hanswer, hnextToken]
      cases hnext : nextToken (server (history ++ [path])) with
      | none =>
        simp only [TradeStationClient.pagesEnd, List.flatMap_singleton, horders]
        rfl
      | some next =>
        simp only
        split_ifs with hseen
        · rfl
        · rw [ih, pagesEnd_behind, horders]

/-- **Pagination is complete or raises.** Against every server of valid pages, the requests are the
first ones of its chain, no more than the client allows and with no token twice. The orders of the
whole chain are returned exactly if it ends within that many pages before a token repeats; if not, a
`PaginationError` is raised, or no request can be formed for a token of the chain. -/
theorem getOrderPages_complete (server : Server) (hvalid : server.Valid client)
    (basePath : PyStr) (params : QueryParams) :
    let source := server.pages client.lib basePath params
    let run := (client.getOrderPages server.get basePath params).run []
    (∃ tokens, source.Asks [] none run.2 tokens ∧ tokens.Nodup ∧
      run.2.length ≤ client.maxOrderPages) ∧
    (∀ orders, run.1 = .ok orders ↔ ∃ pages, source.Chain [] none pages ∧
      pages.length ≤ client.maxOrderPages ∧ (source.tokens pages).Nodup ∧
      orders = pages.flatMap client.ordersOf) ∧
    ((∃ orders, run.1 = .ok orders) ∨ (∃ message, run.1 = .error (.pagination message)) ∨
      (∃ message, run.1 = .error (.value message)) ∧ ∃ stuck, source.request stuck = none ∧
        (stuck = none ∨ ∃ requests, nextToken (server requests) = stuck)) := by
  intro source run
  have hrun : run = (client.pagesEnd [] (source.walk client.maxOrderPages [] none []).1,
      (source.walk client.maxOrderPages [] none []).2) :=
    orderPages_eq_walk client server hvalid basePath params _ [] none [] []
  refine ⟨?_, ?_, ?_⟩
  · obtain ⟨requests, tokens, hwalk, hasks, hlength, hnodup, -⟩ :=
      source.walk_asks client.maxOrderPages [] none []
    rw [hrun]
    dsimp only
    rw [hwalk, List.nil_append]
    exact ⟨tokens, hasks, hnodup, hlength⟩
  · intro orders
    rw [hrun]
    have hiff := fun pages => source.walk_complete_iff client.maxOrderPages [] none [] pages
    constructor
    · intro h
      cases hend : (source.walk client.maxOrderPages [] none []).1 with
      | complete pages =>
        obtain ⟨hchain, hlength, hnodup, -⟩ := (hiff pages).1 hend
        rw [hend] at h
        cases h
        exact ⟨pages, hchain, hlength, hnodup, rfl⟩
      | _ =>
        rw [hend] at h
        cases h
    · rintro ⟨pages, hchain, hlength, hnodup, rfl⟩
      have hend := (hiff pages).2 ⟨hchain, hlength, hnodup, by simp⟩
      rw [hend]
      rfl
  · rw [hrun]
    cases hend : (source.walk client.maxOrderPages [] none []).1 with
    | complete pages => exact .inl ⟨_, rfl⟩
    | repeated => exact .inr (.inl ⟨_, rfl⟩)
    | exceeded => exact .inr (.inl ⟨_, rfl⟩)
    | unasked =>
      obtain ⟨stuck, hstuck, hnamed⟩ := source.walk_unasked _ _ _ _ hend
      exact .inr (.inr ⟨⟨_, rfl⟩, stuck, hstuck, hnamed⟩)

end

/-- A page without orders. -/
def emptyPage (token : Option PyStr) : Json.Dict :=
  [(str "Orders", .arr [])] ++ (token.map fun token => (str "NextToken", .str token)).toList

theorem valid_emptyPage (token : List PyStr → Option PyStr) :
    Server.Valid (fun requests => emptyPage (token requests)) simTradeClient := by
  intro requests
  exact ⟨[], rfl⟩

/-- A token that is a lone surrogate is asked for in vain, and that is no `PaginationError`. -/
theorem getOrderPages_surrogate :
    ¬∀ server : Server, server.Valid simTradeClient →
      let run := (simTradeClient.getOrderPages server.get (str "/orders") []).run []
      (∃ orders, run.1 = .ok orders) ∨ ∃ message, run.1 = .error (.pagination message) := by
  intro h
  have hrun : ((simTradeClient.getOrderPages
      (Server.get fun _ => emptyPage (some [0xd800])) (str "/orders") []).run []).1 =
      .error (.value (str "surrogates not allowed")) := by
    rfl
  rcases h _ (valid_emptyPage fun _ => some [0xd800]) with ⟨orders, hok⟩ | ⟨message, herror⟩
  · rw [hrun] at hok
    cases hok
  · rw [hrun] at herror
    cases herror

/-- A page with an order. -/
def orderPage (orderId : PyStr) (token : Option PyStr) : Json.Dict :=
  [(str "Orders", .arr [.obj [(str "OrderID", .str orderId)]])] ++
    (token.map fun token => (str "NextToken", .str token)).toList

theorem orderSnapshots_orderPage (orderId : PyStr) (token : Option PyStr) :
    simTradeClient.orderSnapshots (orderPage orderId token) = .ok [{ orderId }] := by
  cases token <;> rfl

/-- A chain of two pages. -/
def twoPages : Server := fun requests =>
  if requests.length = 1 then orderPage (str "1") (some (str "t")) else orderPage (str "2") none

theorem getOrderPages_complete_twoPages :
    ((simTradeClient.getOrderPages twoPages.get (str "/orders") []).run []).1 =
      .ok [{ orderId := str "1" }, { orderId := str "2" }] := by
  have hvalid : twoPages.Valid simTradeClient := by
    intro requests
    unfold twoPages
    split_ifs
    · exact ⟨_, orderSnapshots_orderPage _ _⟩
    · exact ⟨_, orderSnapshots_orderPage _ _⟩
  have hcomplete := getOrderPages_complete simTradeClient twoPages hvalid (str "/orders") []
  refine (hcomplete.2.1 _).2
    ⟨[orderPage (str "1") (some (str "t")), orderPage (str "2") none], ?_, ?_, ?_, rfl⟩
  · exact .more rfl rfl (.last rfl rfl)
  · show 2 ≤ 1000
    omega
  · show [str "t"].Nodup
    simp

end TradeStation
