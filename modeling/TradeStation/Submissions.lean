import TradeStation.Acknowledgements
import TradeStation.Client
import TradeStation.Rest.Requests
import TradeStation.Rest.Writes

/-!
# What becomes of a submission

Placing an order, placing a group and replacing an order have one tail: they send the write, and make
a trade of what comes back. Before it they check and look up, and write nothing.

* `submit_leadsTo`: every run of a submission ends before the write, or is a run of checks followed
  by one of the tail.
* `submit_accepted_iff`: when the broker accepts the write, which of its answers come back as a
  trade that says whether it must be reconciled.
* `submit_complete_iff`: when a trade that need not be reconciled does name all orders.
-/

namespace TradeStation

open Python Foundations

/-- The calls that leave a trade. -/
inductive Submission
  | order (order : OrderRequest)
  | group (group : GroupOrderRequest)
  | replacement (accountId orderId : PyStr) (replacement : Replacement)

/-- The acknowledgement names every order that was submitted: the one, or each of a group. -/
def Submission.NamedBy (ack : OrderAck) : Submission → Prop
  | .group request => ack.NamesLegs request.orders.length
  | .order _ | .replacement _ _ _ => ack.namedIds ≠ []

/-- The coroutine of a submission. -/
def TradeStationClient.submit (client : TradeStationClient) :
    Submission → Program TradeStationTrade
  | .order request => client.placeOrder request
  | .group request => client.placeOrderGroup request
  | .replacement accountId orderId replacement =>
    client.replaceOrder accountId orderId replacement

/-! ## Checks, and then the tail -/

/-- An operation that hands the transport a request other than a `GET`. -/
def Op.IsWrite (op : Op) : Prop :=
  match op with
  | .send request => request.method ≠ str "GET"
  | _ => False

/-- Every run of the coroutine raises before anything is written, or is checks and then a run of
`settle` on an order write. -/
def LeadsToSettle (client : TradeStationClient) (p : Program TradeStationTrade) : Prop :=
  ∀ tr r, Coro.Runs p tr r →
    ((∃ exc, r = .error exc) ∧ ∀ event ∈ tr, ¬event.op.IsWrite) ∨
    ∃ tr₁ tr₂ request payload call, tr = tr₁ ++ tr₂ ∧ (∀ event ∈ tr₁, ¬event.op.IsWrite) ∧
      call.retrySafe = false ∧
      Coro.Runs (client.settle request payload (client.rest.requestJson call)) tr₂ r

section
variable {client : TradeStationClient}

theorem leadsToSettle_iff {p : Program TradeStationTrade} :
    LeadsToSettle client p ↔
      Coro.Leads (¬Op.IsWrite ·) (fun _ tr r => ∃ request payload call, call.retrySafe = false ∧
        Coro.Runs (client.settle request payload (client.rest.requestJson call)) tr r) p := by
  refine forall₃_congr fun tr r _ => or_congr_right ?_
  constructor
  · rintro ⟨tr₁, tr₂, request, payload, call, htr, hquiet, hsettle⟩
    exact ⟨tr₁, tr₂, htr, hquiet, request, payload, call, hsettle⟩
  · rintro ⟨tr₁, tr₂, htr, hquiet, request, payload, call, hsettle⟩
    exact ⟨tr₁, tr₂, request, payload, call, htr, hquiet, hsettle⟩

theorem leadsToSettle_settle (request : OrderWriteRequest) (payload : Json.Dict) {call : Call}
    (hcall : call.retrySafe = false) :
    LeadsToSettle client (client.settle request payload (client.rest.requestJson call)) :=
  leadsToSettle_iff.2 (Coro.leads_here fun _ _ h => ⟨request, payload, call, hcall, h⟩)

theorem leadsToSettle_raise (exc : Exc) : LeadsToSettle client (.raise exc) :=
  leadsToSettle_iff.2 (Coro.leads_raise exc)

/-- A check in front. -/
theorem LeadsToSettle.bind {α : Type} {check : Program α} {f : α → Program TradeStationTrade}
    (hcheck : Coro.Only (¬Op.IsWrite ·) check) (hf : ∀ a, LeadsToSettle client (f a)) :
    LeadsToSettle client (check >>= f) :=
  leadsToSettle_iff.2 (.bind hcheck fun a _ _ => leadsToSettle_iff.1 (hf a))

theorem LeadsToSettle.check {α : Type} (e : Except Exc α) {f : α → Program TradeStationTrade}
    (hf : ∀ a, LeadsToSettle client (f a)) : LeadsToSettle client (Coro.ofExcept e >>= f) :=
  .bind (Coro.only_ofExcept _ e) hf

end

/-! ## The checks write nothing -/

/-- Validation does nothing but look for files. -/
theorem only_assertCanSubmitOrders {P : Op → Prop} (hP : ∀ path, P (.exists path)) (lib : Library)
    (config : TradeStationConfig) (accountId : PyStr) :
    Coro.Only P (config.assertCanSubmitOrders lib accountId) := by
  refine (Coro.only_ofExcept _ _).bind fun _ => ?_
  split
  · trivial
  · refine (Coro.only_ask (hP _)).bind fun active => ?_
    split <;> trivial

mutual

theorem only_validateOrderForConfig {P : Op → Prop} (hP : ∀ path, P (.exists path))
    (lib : Library) (config : TradeStationConfig) :
    ∀ order, Coro.Only P (validateOrderForConfig lib config order)
  | .mk fields osos => by
    rw [validateOrderForConfig]
    refine (only_assertCanSubmitOrders hP lib config fields.accountId).bind fun _ => ?_
    refine (Coro.only_ofExcept _ _).bind fun _ => ?_
    exact only_validateOrdersForConfig hP lib config osos

theorem only_validateOrdersForConfig {P : Op → Prop} (hP : ∀ path, P (.exists path))
    (lib : Library) (config : TradeStationConfig) :
    ∀ orders, Coro.Only P (validateOrdersForConfig lib config orders)
  | [] => by
    rw [validateOrdersForConfig]
    trivial
  | order :: orders => by
    rw [validateOrdersForConfig]
    exact (only_validateOrderForConfig hP lib config order).bind fun _ =>
      only_validateOrdersForConfig hP lib config orders

end

theorem only_get (client : RestClient) (path : PyStr) :
    Coro.Only (¬Op.IsWrite ·) (client.get path) := by
  refine (only_requestJson client _).mono fun op hop => ?_
  cases hop with
  | send token => simp [Op.IsWrite, RestClient.request]
  | _ => exact fun h => h

theorem only_getOrdersById {P : Op → Prop} (client : TradeStationClient)
    (hget : ∀ path, Coro.Only P (client.rest.get path)) (accountIds orderIds : List PyStr) :
    Coro.Only P (client.getOrdersById accountIds orderIds) := by
  refine (Coro.only_ofExcept _ _).bind fun _ => ?_
  refine (Coro.only_ofExcept _ _).bind fun accounts => ?_
  refine (Coro.only_ofExcept _ _).bind fun orders => ?_
  exact (hget _).bind fun payload => Coro.only_ofExcept _ _

theorem only_assertOrderBelongsToAccount {P : Op → Prop} (client : TradeStationClient)
    {accountId orderId : PyStr} (hlookup : Coro.Only P (client.getOrdersById [accountId] [orderId])) :
    Coro.Only P (client.assertOrderBelongsToAccount accountId orderId) := by
  refine hlookup.bind fun found => ?_
  split <;> trivial

/-- The tail of a submission performs what its write performs. -/
theorem only_settle {P : Op → Prop} {client : TradeStationClient} {request : OrderWriteRequest}
    {payload : Json.Dict} {write : Program Json.Dict} (hwrite : Coro.Only P write) :
    Coro.Only P (client.settle request payload write) := by
  refine Coro.Only.bind ?_ fun caught => ?_
  · refine Coro.Only.tryCatch (hwrite.bind fun _ => trivial) fun exc => ?_
    split <;> trivial
  · cases caught with
    | error exc => trivial
    | ok response =>
      dsimp only
      split <;> trivial

/-- **A submission is checks and then the tail.** -/
theorem submit_leadsTo (client : TradeStationClient) (submission : Submission) :
    LeadsToSettle client (client.submit submission) := by
  cases submission with
  | order order =>
    refine .check _ fun _ => .check _ fun _ => .bind ?_ fun _ => ?_
    · exact only_validateOrderForConfig (fun _ h => h) client.lib client.config order
    · exact leadsToSettle_settle _ _ rfl
  | group group =>
    refine .check _ fun _ => .check _ fun _ => .bind ?_ fun _ => ?_
    · exact only_validateOrdersForConfig (fun _ h => h) client.lib client.config group.orders
    · exact leadsToSettle_settle _ _ rfl
  | replacement accountId orderId replacement =>
    refine .check _ fun _ => .check _ fun _ => .check _ fun _ => .bind ?_ fun _ => .check _ fun id =>
      .bind ?_ fun _ => ?_
    · exact only_assertCanSubmitOrders (fun _ h => h) client.lib client.config accountId
    · exact only_assertOrderBelongsToAccount client
        (only_getOrdersById client (only_get client.rest) _ _)
    · split
      · exact leadsToSettle_raise _
      · exact .check _ fun _ => .check _ fun path => leadsToSettle_settle _ _ rfl

/-! ## The tail -/

theorem runs_catchAmbiguous {write : Program Json.Dict} {tr : Trace Op Op.Answer}
    {r : Except Exc (Except Exc Json.Dict)}
    (h : Coro.Runs (TradeStationClient.catchAmbiguous write) tr r) :
    ∃ r', Coro.Runs write tr r' ∧ r = match r' with
      | .ok response => .ok (.ok response)
      | .error exc => if exc.isAmbiguous then .ok (.error exc) else .error exc := by
  rw [TradeStationClient.catchAmbiguous, Coro.runs_tryCatch] at h
  rcases h with ⟨a, htry, rfl⟩ | ⟨exc, tr₁, tr₂, rfl, htry, hhandler⟩
  · rcases Coro.runs_bind.1 htry with ⟨_, -, he⟩ | ⟨response, tr₁, tr₂, rfl, hwrite, rfl, he⟩
    · cases he
    · cases he
      exact ⟨.ok response, by simpa using hwrite, rfl⟩
  · rcases Coro.runs_bind.1 htry with ⟨_, hwrite, he⟩ | ⟨_, _, _, rfl, -, -, he⟩
    · cases he
      refine ⟨.error exc, ?_⟩
      split_ifs at hhandler with hambiguous <;> obtain ⟨rfl, rfl⟩ := hhandler <;>
        simp [hwrite, hambiguous]
    · cases he

/-- What `settle` makes of the end of its write. -/
def Settled (client : TradeStationClient) (request : OrderWriteRequest) (payload : Json.Dict)
    (r' : Except Exc Json.Dict) (r : Except Exc TradeStationTrade) : Prop :=
  let payloadHash := canonicalPayloadHash client.lib payload
  match r' with
  | .error exc =>
    r = if exc.isAmbiguous then .ok { request, payload, payloadHash, ambiguousError := some exc }
      else .error exc
  | .ok response =>
    r = match OrderAck.validate response with
      | none => .error .validation
      | some ack => .ok { request, payload, payloadHash, ack := some ack }

theorem runs_settle {client : TradeStationClient} {request : OrderWriteRequest}
    {payload : Json.Dict} {write : Program Json.Dict} {tr : Trace Op Op.Answer}
    {r : Except Exc TradeStationTrade} (h : Coro.Runs (client.settle request payload write) tr r) :
    ∃ r', Coro.Runs write tr r' ∧ Settled client request payload r' r := by
  rw [TradeStationClient.settle] at h
  rcases Coro.runs_bind.1 h with ⟨exc, hcatch, rfl⟩ | ⟨caught, tr₁, tr₂, rfl, hcatch, hrest⟩
  · obtain ⟨r', hwrite, he⟩ := runs_catchAmbiguous hcatch
    refine ⟨r', hwrite, ?_⟩
    cases r' with
    | ok response => cases he
    | error exc' =>
      simp only at he
      split_ifs at he with hambiguous
      cases he
      simp [Settled, hambiguous]
  · obtain ⟨r', hwrite, he⟩ := runs_catchAmbiguous hcatch
    cases r' with
    | ok response =>
      cases he
      simp only at hrest
      refine ⟨.ok response, ?_⟩
      cases hack : OrderAck.validate response <;> rw [hack] at hrest <;>
        obtain ⟨rfl, rfl⟩ := hrest <;> simp [Settled, hack, hwrite]
    | error exc =>
      simp only at he
      split_ifs at he with hambiguous
      cases he
      obtain ⟨rfl, rfl⟩ := hrest
      exact ⟨.error exc, by simpa using hwrite, by simp [Settled, hambiguous]⟩

/-- A write that returns is made a trade of, if its answer validates. -/
theorem settle_of_runs {client : TradeStationClient} (request : OrderWriteRequest)
    (payload : Json.Dict) {write : Program Json.Dict} {tr : Trace Op Op.Answer}
    {response : Json.Dict} (h : Coro.Runs write tr (.ok response)) :
    Coro.Runs (client.settle request payload write) tr
      (match OrderAck.validate response with
        | none => .error .validation
        | some ack =>
          .ok { request, payload, payloadHash := canonicalPayloadHash client.lib payload, ack := some ack }) := by
  unfold TradeStationClient.settle TradeStationClient.catchAmbiguous
  rw [Coro.runs_bind]
  refine .inr ⟨.ok response, tr, [], by simp, ?_, ?_⟩
  · rw [Coro.runs_tryCatch]
    refine .inl ⟨_, ?_, rfl⟩
    rw [Coro.runs_bind]
    exact .inr ⟨response, tr, [], by simp, h, rfl, rfl⟩
  · cases hack : OrderAck.validate response with
    | none => simp [hack]
    | some ack => simp [hack]

/-- The write was answered by a success with an object. -/
def WriteAccepted (tr : Trace Op Op.Answer) (body : Json.Dict) : Prop :=
  ∃ request response, ⟨.send request, .ok response⟩ ∈ tr ∧ request.method ≠ str "GET" ∧
    isSuccess response = true ∧ response.json = some (.obj body)

/-- **A submission whose write was accepted** ends as the body validates. -/
theorem submit_accepted {client : TradeStationClient} {submission : Submission}
    {tr : Trace Op Op.Answer} {r : Except Exc TradeStationTrade} {body : Json.Dict}
    (h : Coro.Runs (client.submit submission) tr r) (haccepted : WriteAccepted tr body) :
    ∃ request payload, Settled client request payload (.ok body) r := by
  obtain ⟨request, response, hmem, hmethod, hsuccess, hbody⟩ := haccepted
  rcases submit_leadsTo client submission tr r h with
    ⟨-, hquiet⟩ | ⟨tr₁, tr₂, written, payload, call, rfl, hquiet, hcall, hsettle⟩
  · exact absurd hmethod (hquiet _ hmem)
  · obtain ⟨r', hwrite, hsettled⟩ := runs_settle hsettle
    have hmem₂ : ⟨.send request, .ok response⟩ ∈ tr₂ :=
      (List.mem_append.1 hmem).resolve_left fun hmem₁ => hquiet _ hmem₁ hmethod
    rw [(writeRun_of_runs hcall hwrite).accepted hmem₂ hsuccess hbody] at hsettled
    exact ⟨written, payload, hsettled⟩

/-! ## Accepted writes come back -/

/-- A trade whose acknowledgement names no order says that it must be reconciled. -/
def TradeStationTrade.Honest (trade : TradeStationTrade) : Prop :=
  ∀ ack, trade.ack = some ack → ack.namedIds = [] → trade.reconcileRequired = true

theorem honest_acknowledged (request : OrderWriteRequest) (payload : Json.Dict)
    (payloadHash : PyStr) (ack : OrderAck) :
    ({ request, payload, payloadHash, ack := some ack : TradeStationTrade }).Honest ↔
      (ack.errors = [] → ¬ack.NamesOnlyBlank) := by
  unfold TradeStationTrade.Honest
  constructor
  · intro h herrors hblank
    rcases (reconcileRequired_acknowledged request payload payloadHash ack).1
      (h ack rfl hblank.1) with hne | ⟨-, hnot⟩
    · exact hne herrors
    · exact hnot hblank
  · rintro h _ ⟨⟩ hnamed
    rw [reconcileRequired_acknowledged]
    by_cases herrors : ack.errors = []
    · exact .inr ⟨hnamed, h herrors⟩
    · exact .inl herrors

/-- **An accepted write comes back as a trade** that says whether it must be reconciled, exactly if
the body is shaped like an acknowledgement and does not name a blank order only. -/
theorem submit_accepted_iff (client : TradeStationClient) (submission : Submission)
    {tr : Trace Op Op.Answer} {r : Except Exc TradeStationTrade} {body : Json.Dict}
    (hrun : Coro.Runs (client.submit submission) tr r) (haccepted : WriteAccepted tr body) :
    (∃ trade, r = .ok trade ∧ trade.Honest) ↔
      AckShaped body ∧ ∀ ack, OrderAck.validate body = some ack → ack.errors = [] →
        ¬ack.NamesOnlyBlank := by
  obtain ⟨request, payload, hsettled⟩ := submit_accepted hrun haccepted
  simp only [Settled] at hsettled
  rw [← OrderAck.validate_iff, hsettled]
  cases hack : OrderAck.validate body with
  | none => simp
  | some ack =>
    have hhonest := honest_acknowledged request payload (canonicalPayloadHash client.lib payload) ack
    constructor
    · rintro ⟨trade, htrade, h⟩
      cases htrade
      refine ⟨⟨ack, rfl⟩, ?_⟩
      rintro _ ⟨⟩
      exact hhonest.1 h
    · rintro ⟨-, h⟩
      exact ⟨_, rfl, hhonest.2 (h ack rfl)⟩

/-- A client for the simulator. -/
def simTradeClient : TradeStationClient where
  lib := simClient.lib
  config := simConfig
  py := plainPydantic

/-- Good for the day. -/
def dayOrder : TimeInForce where
  duration := .day
  dated := by simp

/-- One share at ten dollars. -/
def buyFields : OrderFields where
  accountId := str "SIM1"
  symbol := str "MSFT"
  quantity := .ofNat 1
  orderType := .limit
  tradeAction := .buy
  timeInForce := dayOrder
  limitPrice := some (.ofNat 10)
  requestId := str "r"
  accountId_clean := by decide
  symbol_clean := by decide
  quantity_pos := by decide
  limitPrice_pos := by decide
  stopPrice_pos := by decide
  estimatedPrice_pos := by decide
  limit_price := by simp
  stop_price := by simp
  both_prices := by simp

theorem validateSingle_buy : validateSingleOrderForConfig buyFields simConfig = .ok () := by
  have hnotional : estimatedNotional buyFields = some (some (.ofNat 10)) := by decide
  have hcap : (Decimal.ofNat 10).gt simConfig.maxOrderNotional = false := by
    norm_num [Decimal.gt, Decimal.toRat, Decimal.ofNat, simConfig]
  have hcheck : checkNotional simConfig (str "order") (estimatedNotional buyFields) = .ok () := by
    rw [hnotional]
    simp [checkNotional, hcap]
  unfold validateSingleOrderForConfig
  rw [hcheck]
  rfl

theorem validate_buy :
    validateOrderForConfig simClient.lib simConfig (.mk buyFields []) = .ret () := by
  rw [validateOrderForConfig, validateSingle_buy, validateOrdersForConfig]
  rfl

/-- The write of that order. -/
def buyCall : Call where
  method := str "POST"
  path := str "/orderexecution/orders"
  payload := some (orderPayload simClient.lib (.mk buyFields []))
  retrySafe := false
  ambiguousOperation := some (str "submit order")
  localRequestId := some (str "r")

/-- What happens when the broker answers it with a 200. -/
def answered (bytes : List UInt8) : Trace Op Op.Answer :=
  [⟨.provider .getAccessToken, .ok (str "T")⟩,
    ⟨.send (simClient.request buyCall (str "T")), .ok ⟨200, [], bytes⟩⟩]

section
variable {bytes : List UInt8} {body : Json.Dict}
  (hbody : (⟨200, [], bytes⟩ : HTTPResponse).json = some (.obj body))
include hbody

theorem writeAccepted_answered : WriteAccepted (answered bytes) body :=
  ⟨_, _, List.mem_cons_of_mem _ (List.mem_singleton.2 rfl), by decide, rfl, hbody⟩

theorem runs_requestJson_answered (client : RestClient) (call : Call) :
    Coro.Runs (client.requestJson call)
      [⟨.provider .getAccessToken, .ok (str "T")⟩,
        ⟨.send (client.request call (str "T")), .ok ⟨200, [], bytes⟩⟩] (.ok body) := by
  have hdecode : RestClient.decode call ⟨200, [], bytes⟩ = .ok body := by
    simp only [RestClient.decode, hbody]
  rw [RestClient.requestJson, RestClient.requestLoop, Program.getAccessToken,
    Program.runs_provider]
  refine .inr ⟨_, _, rfl, ?_⟩
  rw [Program.runs_send]
  refine ⟨_, _, rfl, ?_⟩
  simp [isSuccess, hdecode]

/-- The order comes back as the body validates. -/
theorem runs_answered :
    Coro.Runs (simTradeClient.submit (.order (.mk buyFields []))) (answered bytes)
      (match OrderAck.validate body with
        | none => .error .validation
        | some ack => .ok
          { request := .order (.mk buyFields [])
            payload := orderPayload simClient.lib (.mk buyFields [])
            payloadHash := canonicalPayloadHash simClient.lib
              (orderPayload simClient.lib (.mk buyFields []))
            ack := some ack }) := by
  have hscope : simTradeClient.requireScope tradeScope = .ok () := rfl
  have hcapability : TradeStationClient.requireCapability
      simTradeClient.capabilities.supportsSingleOrders "supports_single_orders" = .ok () := rfl
  have hvalid : validateOrderForConfig simTradeClient.lib simTradeClient.config
      (.mk buyFields []) = .ret () := validate_buy
  unfold TradeStationClient.submit TradeStationClient.placeOrder
  simp only [hscope, hcapability, hvalid, Coro.ofExcept_ok, Coro.ret_bind]
  exact settle_of_runs _ _ (runs_requestJson_answered hbody simClient buyCall)

end

/-- The bytes of an answer in ASCII. -/
def ascii (text : String) : List UInt8 := text.toList.map fun c => c.toNat.toUInt8

/-- The order was accepted under a number, and that is a validation error. -/
theorem submit_accepted_raises :
    ∃ tr r body, Coro.Runs (simTradeClient.submit (.order (.mk buyFields []))) tr r ∧
      WriteAccepted tr body ∧ ¬∃ trade, r = .ok trade ∧ trade.Honest := by
  have hbody : (⟨200, [], ascii "\x7b\"OrderID\":7\x7d"⟩ : HTTPResponse).json =
      some (.obj [(str "OrderID", .int 7)]) := by
    rfl
  refine ⟨_, _, _, runs_answered hbody, writeAccepted_answered hbody, ?_⟩
  rintro ⟨trade, htrade, -⟩
  cases htrade

theorem submit_accepted_iff_emptyBody :
    (∃ tr r, Coro.Runs (simTradeClient.submit (.order (.mk buyFields []))) tr r ∧
      WriteAccepted tr [] ∧ ((∃ trade, r = .ok trade ∧ trade.Honest) ↔
        AckShaped [] ∧ ∀ ack, OrderAck.validate [] = some ack → ack.errors = [] →
          ¬ack.NamesOnlyBlank)) := by
  have hbody : (⟨200, [], ascii "\x7b\x7d"⟩ : HTTPResponse).json = some (.obj []) := by
    rfl
  exact ⟨_, _, runs_answered hbody, writeAccepted_answered hbody,
    submit_accepted_iff _ _ (runs_answered hbody) (writeAccepted_answered hbody)⟩

/-! ## Trades that need no reconciling -/

/-- A trade that need not be reconciled was acknowledged without errors, and all orders named. -/
def TradeStationTrade.NamesAll (trade : TradeStationTrade) (submission : Submission)
    (ack : OrderAck) : Prop :=
  trade.reconcileRequired = false → ack.errors = [] ∧ submission.NamedBy ack

/-- **The signal is complete** exactly if the acknowledgement has errors, names every order that was
submitted, or names none and has no top-level ID that is blank but not empty. -/
theorem submit_complete_iff (client : TradeStationClient) (submission : Submission)
    {tr : Trace Op Op.Answer} {r : Except Exc TradeStationTrade} {body : Json.Dict}
    {ack : OrderAck} (hrun : Coro.Runs (client.submit submission) tr r)
    (haccepted : WriteAccepted tr body) (hack : OrderAck.validate body = some ack) :
    (∀ trade, r = .ok trade → trade.NamesAll submission ack) ↔
      ack.errors ≠ [] ∨ submission.NamedBy ack ∨
        (ack.namedIds = [] ∧ ¬ack.NamesOnlyBlank) := by
  obtain ⟨request, payload, hsettled⟩ := submit_accepted hrun haccepted
  simp only [Settled, hack] at hsettled
  have hrequired := reconcileRequired_acknowledged request payload
    (canonicalPayloadHash client.lib payload) ack
  subst hsettled
  unfold TradeStationTrade.NamesAll
  constructor
  · intro h
    by_contra hnot
    push Not at hnot
    obtain ⟨herrors, hunnamed, hnamed⟩ := hnot
    have hsilent := mt hrequired.1 fun hor =>
      hor.elim (fun hne => hne herrors) fun hnone => hnone.2 (hnamed hnone.1)
    exact hunnamed (h _ rfl (by simpa using hsilent)).2
  · rintro hor _ ⟨⟩ hsilent
    have hnot := mt hrequired.2 (by rw [hsilent]; simp)
    push Not at hnot
    obtain ⟨herrors, hnamed⟩ := hnot
    refine ⟨herrors, ?_⟩
    rcases hor with hne | hall | ⟨hnone, hblank⟩
    · exact absurd herrors hne
    · exact hall
    · exact absurd (hnamed hnone) hblank

/-- A blank order ID: the trade names no order, and says that nothing has to be reconciled. -/
theorem submit_blank_incomplete :
    ∃ tr r body ack, Coro.Runs (simTradeClient.submit (.order (.mk buyFields []))) tr r ∧
      WriteAccepted tr body ∧ OrderAck.validate body = some ack ∧
      ¬∀ trade, r = .ok trade → trade.NamesAll (.order (.mk buyFields [])) ack := by
  have hbody : (⟨200, [], ascii "\x7b\"OrderID\":\" \"\x7d"⟩ : HTTPResponse).json =
      some (.obj [(str "OrderID", .str (str " "))]) := by
    rfl
  refine ⟨_, _, _, _, runs_answered hbody, writeAccepted_answered hbody, rfl, fun h => ?_⟩
  obtain ⟨-, hnamed⟩ := h _ rfl rfl
  exact hnamed rfl

theorem submit_complete_iff_named :
    ∃ tr r body ack, Coro.Runs (simTradeClient.submit (.order (.mk buyFields []))) tr r ∧
      WriteAccepted tr body ∧ OrderAck.validate body = some ack ∧
      ((∀ trade, r = .ok trade → trade.NamesAll (.order (.mk buyFields [])) ack) ↔
        ack.errors ≠ [] ∨ (Submission.order (.mk buyFields [])).NamedBy ack ∨
          (ack.namedIds = [] ∧ ¬ack.NamesOnlyBlank)) := by
  have hbody : (⟨200, [], ascii "\x7b\"OrderID\":\"7\"\x7d"⟩ : HTTPResponse).json =
      some (.obj [(str "OrderID", .str (str "7"))]) := by
    rfl
  exact ⟨_, _, _, _, runs_answered hbody, writeAccepted_answered hbody, rfl,
    submit_complete_iff _ _ (runs_answered hbody) (writeAccepted_answered hbody) rfl⟩

end TradeStation
