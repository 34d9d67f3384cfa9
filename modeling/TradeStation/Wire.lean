import TradeStation.Executions
import TradeStation.PayloadHash
import TradeStation.RoundTrip

/-!
# What arrives at the broker

A submission down to the bytes of its request, and from there up again: UTF-8, JSON, and the request
models.

* `isTree_asked`: what is asked for is written as a payload tree, if its texts can be written at all.
* `asked_reads`: and the models read it back.
* `submit_arrives`: so what arrives of a submission, in any run, is what was asked for, and what the
  trade keeps of it is what arrived.
-/

namespace TradeStation

open Python Foundations

/-- The library writes JSON as documented, the keys in the order of insertion. -/
def Python.Library.WritesWire (lib : Library) (floatRepr : Python.PyFloat → List Char) : Prop :=
  ∀ payload, lib.dumps payload = utf8Encode (Json.dumpsInOrder floatRepr (.obj payload))

/-- What a server makes of a body. -/
def received (body : List UInt8) : Option Json :=
  match utf8Decode [] body with
  | some (text, []) => Json.loads text
  | _ => none

theorem received_dumps {lib : Library} {floatRepr : Python.PyFloat → List Char}
    (hlib : lib.WritesWire floatRepr) {payload : Json.Dict}
    (h : Json.IsTree Json.Written (.obj payload)) : received (lib.dumps payload) = some (.obj payload) := by
  rw [hlib, received, utf8Decode_encode]
  exact Json.loads_dumpsInOrder floatRepr h

/-! ## What can be written -/

/-- The rules are dumped as trees of texts that can be written. -/
def RulesWritten (lib : Library) (rules : List Json.Dict) : Prop :=
  ∀ rule ∈ rules, Json.IsTree Json.Written (.obj (lib.dumpDict rule))

/-- The texts of a request can be written. -/
def OrderWriteRequest.Written (lib : Library) : OrderWriteRequest → Prop
  | .order request => request.Written lib
  | .group request => ∀ order ∈ request.orders, order.Written lib
  | .replacement request => ∀ options ∈ request.advancedOptions,
    (∀ activation ∈ options.marketActivationRules, RulesWritten lib activation.rules) ∧
      ∀ activation ∈ options.timeActivationRules, RulesWritten lib activation.rules

section
variable {lib : Library}

theorem isTree_groupOrderPayload {group : GroupOrderRequest}
    (h : ∀ order ∈ group.orders, order.Written lib) :
    Json.IsTree Json.Written (.obj (groupOrderPayload lib group)) := by
  have hascii : ∀ c ∈ group.type.value, c < 0x80 := by
    cases group.type <;> decide
  have htype := fieldsAre_field "Type" (isTree_some (.str (written_of_ascii hascii)))
  have horders : Json.IsTree Json.Written (.arr (orderPayloads lib group.orders)) := by
    refine .arr fun item hitem => ?_
    obtain ⟨order, horder, rfl⟩ := (mem_orderPayloads lib).1 hitem
    exact isTree_orderPayload (h order horder)
  exact (htype.append (fieldsAre_field "Orders" (isTree_some horders))).isTree (by decide) (by decide)

theorem isTree_activationRules {value : ActivationRulesReplace} (h : RulesWritten lib value.rules) :
    Json.IsTree Json.Written (activationRulesPayload lib value) := by
  have hclear := fieldsAre_field "ClearAll" (isTree_map value.clearAll fun b _ => .bool b)
  exact (hclear.append (fieldsAre_field "Rules" (isTree_rules h))).isTree (by decide) (by decide)

theorem isTree_advancedOptionsReplace {value : AdvancedOptionsReplace}
    (hmarket : ∀ activation ∈ value.marketActivationRules, RulesWritten lib activation.rules)
    (htime : ∀ activation ∈ value.timeActivationRules, RulesWritten lib activation.rules) :
    Json.IsTree Json.Written (advancedOptionsReplacePayload lib value) := by
  have hrules : ∀ name (value : Option ActivationRulesReplace),
      (∀ activation ∈ value, RulesWritten lib activation.rules) →
      FieldsAre [name] (field name (value.map (activationRulesPayload lib))) :=
    fun name value h => fieldsAre_field name
      (isTree_map value fun activation hmem => isTree_activationRules (h activation hmem))
  have htrailing := fieldsAre_field "TrailingStop"
    (isTree_map value.trailingStop fun stop _ => isTree_trailingStop stop)
  have hall := (((hrules "MarketActivationRules" _ hmarket).append
    (fieldsAre_wireDecimal "ShowOnlyQuantity" value.showOnlyQuantity)).append
    (hrules "TimeActivationRules" _ htime)).append htrailing
  exact hall.isTree (by decide) (by decide)

theorem isTree_replaceOrderPayload {replacement : OrderReplaceRequest}
    (h : (OrderWriteRequest.replacement replacement).Written lib) :
    Json.IsTree Json.Written (.obj (replaceOrderPayload lib replacement)) := by
  have hoptions := fieldsAre_field "AdvancedOptions"
    (isTree_map replacement.advancedOptions fun options hmem =>
      isTree_advancedOptionsReplace (h options hmem).1 (h options hmem).2)
  have htype := fieldsAre_field "OrderType" (isTree_map replacement.orderType fun type _ =>
    .str (written_of_ascii (ascii_orderType type)))
  have hall := (((hoptions.append (fieldsAre_wireDecimal "LimitPrice" replacement.limitPrice)).append
    htype).append (fieldsAre_wireDecimal "Quantity" replacement.quantity)).append
    (fieldsAre_wireDecimal "StopPrice" replacement.stopPrice)
  exact hall.isTree (by decide) (by decide)

/-- **What is asked for is written as a payload tree.** -/
theorem isTree_asked {submission : Submission} {asked : OrderWriteRequest} {payload : Json.Dict}
    (h : submission.Asks lib asked payload) (hwritten : asked.Written lib) :
    Json.IsTree Json.Written (.obj payload) := by
  cases h with
  | order order => exact isTree_orderPayload hwritten
  | group group => exact isTree_groupOrderPayload hwritten
  | replacement => exact isTree_replaceOrderPayload hwritten

end

/-! ## Groups are read back -/

/-- Two groups that are the same on the wire. -/
structure GroupOrderRequest.WireRel (a b : GroupOrderRequest) : Prop where
  type : a.type = b.type
  orders : OrderRequest.WireRels SameNumber SameInstant a.orders b.orders

theorem OrderRequest.WireRel.fields {order order' : OrderRequest}
    (h : OrderRequest.WireRel SameNumber SameInstant order order') :
    OrderFields.WireRel SameNumber SameInstant order.fields order'.fields := by
  cases order
  cases order'
  rw [OrderRequest.WireRel] at h
  exact h.1

/-- A text of orders that is on the wire is the same in orders that are. -/
theorem OrderRequest.WireRels.map_eq {text : OrderRequest → PyStr}
    (htext : ∀ {order order'}, OrderRequest.WireRel SameNumber SameInstant order order' →
      text order = text order') :
    ∀ {orders orders' : List OrderRequest},
      OrderRequest.WireRels SameNumber SameInstant orders orders' →
      orders.map text = orders'.map text
  | [], [], _ => rfl
  | _ :: _, _ :: _, h => by
    rw [OrderRequest.WireRels] at h
    rw [List.map_cons, List.map_cons, htext h.1, OrderRequest.WireRels.map_eq htext h.2]
  | [], _ :: _, h => by simp [OrderRequest.WireRels] at h
  | _ :: _, [], h => by simp [OrderRequest.WireRels] at h

/-- Orders share a text if their texts are one. -/
theorem shared_congr {text : OrderRequest → PyStr} {orders orders' : List OrderRequest}
    (h : orders.map text = orders'.map text)
    (hshared : ∀ o ∈ orders, ∀ o' ∈ orders, text o = text o') :
    ∀ o ∈ orders', ∀ o' ∈ orders', text o = text o' := by
  have htexts : ∀ t ∈ orders.map text, ∀ t' ∈ orders.map text, t = t' := by
    simpa only [List.forall_mem_map] using hshared
  rw [h] at htexts
  simpa only [List.forall_mem_map] using htexts

theorem enumValue_groupType (type : GroupType) :
    enumValue GroupType.value GroupType.members (.str type.value) = some type := by
  cases type <;> decide

section
variable {py : Pydantic} (hpy : py.Reads) {lib : Library} (hlib : lib.Writes)
include hpy hlib

/-- **A group comes back** from its payload. -/
theorem group_reads (uuid4 : List ℕ → PyStr) (fresh : PyStr) (group : GroupOrderRequest)
    (hgroup : ∀ node ∈ OrderRequest.nodesOf group.orders, node.Representable) :
    ∃ group', py.groupOrder uuid4 fresh (.obj (groupOrderPayload lib group)) = some group' ∧
      GroupOrderRequest.WireRel group group' := by
  obtain ⟨orders', hreads, hrels⟩ := orders_reads hpy hlib uuid4 group.orders [] 0 hgroup
  have hkeys : AliasKeys [("Type", "type_"), ("Orders", "orders"), ("request_id", "request_id")]
      (groupOrderPayload lib group) := by
    rw [groupOrderPayload, aliasKeys_append]
    exact ⟨aliasKeys_field (by decide), aliasKeys_field (by decide)⟩
  have htype : requiredField (groupOrderPayload lib group) "Type" "type_"
      (enumValue GroupType.value GroupType.members) = some group.type := by
    rw [requiredField_eq (.str group.type.value) (by simp [OrderAck.lookup, groupOrderPayload])]
    exact enumValue_groupType group.type
  have hitems : requiredField (groupOrderPayload lib group) "Orders" "orders" tupleValue =
      some (orderPayloads lib group.orders) := by
    rw [requiredField_eq (.arr (orderPayloads lib group.orders))
      (by simp [OrderAck.lookup, groupOrderPayload])]
    rfl
  have hid : defaultField (groupOrderPayload lib group) "request_id" "request_id" py.uuid fresh =
      some fresh :=
    defaultField_eq (by simp [OrderAck.lookup, groupOrderPayload])
  -- the checks of the shape look at nothing that is not on the wire
  have haccount : group.orders.map (fun order => order.fields.accountId) =
      orders'.map fun order => order.fields.accountId := hrels.map_eq fun h => h.fields.accountId
  have hsymbol : group.orders.map (fun order => order.fields.symbol) =
      orders'.map fun order => order.fields.symbol := hrels.map_eq fun h => h.fields.symbol
  have hlength : group.orders.length = orders'.length := by
    simpa using congrArg List.length haccount
  have hshape : orders' ≠ [] ∧ (group.type = .oco → 2 ≤ orders'.length) ∧
      (group.type = .bracket → 3 ≤ orders'.length) ∧
      (∀ o ∈ orders', ∀ o' ∈ orders', o.fields.accountId = o'.fields.accountId) ∧
      ∀ o ∈ orders', ∀ o' ∈ orders', o.fields.symbol = o'.fields.symbol := by
    rw [← hlength, ← List.length_pos_iff, ← hlength, List.length_pos_iff]
    exact ⟨group.nonempty, group.oco, group.bracket, shared_congr haccount group.one_account,
      shared_congr hsymbol group.one_symbol⟩
  rw [Pydantic.groupOrder, forbidExtra_of_aliasKeys hkeys, htype, hitems, hid]
  simp only [Option.bind_eq_bind, Option.bind_some, hreads]
  exact ⟨_, dif_pos hshape, rfl, hrels⟩

end

/-! ## What is asked for arrives -/

/-- A request that can be written as it is. -/
def OrderWriteRequest.Representable : OrderWriteRequest → Prop
  | .order request => ∀ node ∈ request.nodes, node.Representable
  | .group request => ∀ node ∈ OrderRequest.nodesOf request.orders, node.Representable
  | .replacement request => request.Representable

/-- A body reads as a request: its model accepts it, and makes what is the same on the wire. -/
inductive OrderWriteRequest.ReadsAs (py : Pydantic) (uuid4 : List ℕ → PyStr) (fresh : PyStr)
    (body : Json) : OrderWriteRequest → Prop
  | order {a b : OrderRequest} (h : py.order uuid4 [] body = some b)
    (hrel : OrderRequest.WireRel SameNumber SameInstant a b) : ReadsAs py uuid4 fresh body (.order a)
  | group {a b : GroupOrderRequest} (h : py.groupOrder uuid4 fresh body = some b)
    (hrel : GroupOrderRequest.WireRel a b) : ReadsAs py uuid4 fresh body (.group a)
  | replacement {a b : OrderReplaceRequest} (h : py.orderReplaceRequest body = some b)
    (hrel : OrderReplaceRequest.WireRel SameNumber a b) :
    ReadsAs py uuid4 fresh body (.replacement a)

/-- **What is asked for is read back** from its payload. -/
theorem asked_reads {py : Pydantic} (hpy : py.Reads) {lib : Library} (hlib : lib.Writes)
    (uuid4 : List ℕ → PyStr) (fresh : PyStr) {submission : Submission} {asked : OrderWriteRequest}
    {payload : Json.Dict} (h : submission.Asks lib asked payload) (hasked : asked.Representable) :
    asked.ReadsAs py uuid4 fresh (.obj payload) := by
  cases h with
  | order order =>
    obtain ⟨order', hread, hrel⟩ := order_reads hpy hlib uuid4 order [] hasked
    exact .order hread hrel
  | group group =>
    obtain ⟨group', hread, hrel⟩ := group_reads hpy hlib uuid4 fresh group hasked
    exact .group hread hrel
  | replacement accountId orderId replacement request h =>
    obtain ⟨request', hread, hrel⟩ := replacement_reads hpy hlib request hasked
    exact .replacement hread hrel

/-- A write that a run of a submission sends, and a trade that it leaves, are of what it asks for. -/
theorem submit_asks {client : TradeStationClient} {submission : Submission}
    {tr : Trace Op Op.Answer} {r : Except Exc TradeStationTrade}
    (hrun : Coro.Runs (client.submit submission) tr r) {request : HTTPRequest}
    {answer : Except Exc HTTPResponse} (hsent : ⟨.send request, answer⟩ ∈ tr)
    (hwrite : request.method ≠ str "GET") :
    ∃ asked payload call token, submission.Asks client.lib asked payload ∧
      request = client.rest.request call token ∧ call.payload = some payload ∧
      ∀ trade, r = .ok trade → trade.request = asked ∧
        trade.payloadHash = canonicalPayloadHash client.lib payload := by
  rcases (submit_through client submission).runs hrun with
    ⟨-, hquiet⟩ | ⟨before, tr', p, rfl, hquiet, hp, hrun⟩
  · exact absurd hwrite (hquiet _ hsent)
  obtain ⟨asked, payload, call, hasks, -, -, hpayload, rfl⟩ := hp
  obtain ⟨r', hcall, hsettled⟩ := runs_settle hrun
  have hmem := (List.mem_append.1 hsent).resolve_left fun hbefore => hquiet _ hbefore hwrite
  obtain ⟨token, rfl⟩ : ∃ token, request = client.rest.request call token := by
    cases (only_requestJson client.rest call).of_runs hcall _ hmem with
    | send token => exact ⟨token, rfl⟩
  refine ⟨asked, payload, call, token, hasks, rfl, hpayload, ?_⟩
  rintro trade rfl
  simp only [Settled] at hsettled
  cases r' with
  | ok response =>
    simp only at hsettled
    split at hsettled <;> cases hsettled
    exact ⟨rfl, rfl⟩
  | error exc =>
    simp only at hsettled
    split_ifs at hsettled
    cases hsettled
    exact ⟨rfl, rfl⟩

/-- `headers.setdefault` of a name that is not there. -/
theorem Headers.get_setDefault {headers : Headers} {name value : PyStr}
    (h : headers.get name = none) : (headers.setDefault name value).get name = some value := by
  have hnone : (headers.find? fun header => header.1 = name) = none := Option.map_eq_none_iff.1 h
  rw [Headers.setDefault, h]
  simp [Headers.get, List.find?_append, hnone]

/-- **What is asked for arrives.** Every write that a submission sends has a body, in JSON, which reads
as what was asked for; and where the submission leaves a trade, the trade is of that request and has
the hash of the body that arrived. -/
theorem submit_arrives {client : TradeStationClient} {floatRepr : Python.PyFloat → List Char}
    (hlib : client.lib.WritesWire floatRepr) (hdump : client.lib.Writes) {py : Pydantic}
    (hpy : py.Reads)
    (uuid4 : List ℕ → PyStr) (fresh : PyStr) {submission : Submission} {tr : Trace Op Op.Answer}
    {r : Except Exc TradeStationTrade} (hrun : Coro.Runs (client.submit submission) tr r)
    {request : HTTPRequest} {answer : Except Exc HTTPResponse}
    (hsent : ⟨.send request, answer⟩ ∈ tr) (hwrite : request.method ≠ str "GET")
    (hwritten : ∀ asked payload, submission.Asks client.lib asked payload →
      asked.Written client.lib ∧ asked.Representable) :
    ∃ asked payload body, submission.Asks client.lib asked payload ∧
      (urllibRequest client.lib request).data = some body ∧
      (urllibRequest client.lib request).headers.get (str "Content-Type") =
        some (str "application/json") ∧
      received body = some (.obj payload) ∧ asked.ReadsAs py uuid4 fresh (.obj payload) ∧
      ∀ trade, r = .ok trade → trade.request = asked ∧
        trade.payloadHash = canonicalPayloadHash client.lib payload := by
  obtain ⟨asked, payload, call, token, hasks, rfl, hpayload, htrade⟩ := submit_asks hrun hsent hwrite
  obtain ⟨hcan, hasked⟩ := hwritten asked payload hasks
  refine ⟨asked, payload, client.lib.dumps payload, hasks, ?_, ?_,
    received_dumps hlib (isTree_asked hasks hcan), asked_reads hpy hdump uuid4 fresh hasks hasked,
    htrade⟩
  · simp [urllibRequest, RestClient.request, hpayload]
  · have hnone : (client.rest.request call token).headers.get (str "Content-Type") = none := by
      have haccept : str "Accept" ≠ str "Content-Type" := by decide
      have hauthorization : str "Authorization" ≠ str "Content-Type" := by decide
      simp [Headers.get, RestClient.request, haccept, hauthorization]
    simpa [urllibRequest, RestClient.request, hpayload] using Headers.get_setDefault hnone

/-- A library that writes times, and JSON, as documented. -/
def wireLib : Library :=
  { isoLibrary with
    dumps := fun payload => utf8Encode (Json.dumpsInOrder (fun _ => []) (.obj payload)) }

theorem wireLib_writes : wireLib.Writes := ⟨isoLibrary_writes.isoformat, isoLibrary_writes.dumpDict⟩

/-- A client of the simulator with that library. -/
def wireClient : TradeStationClient := { simTradeClient with lib := wireLib }

/-- The write of one share. -/
def wireCall : Call := { buyCall with payload := some (orderPayload wireLib (.mk buyFields [])) }

theorem runs_wired : ∃ r, Coro.Runs (wireClient.submit (.order (.mk buyFields [])))
    [⟨.provider .getAccessToken, .ok (str "T")⟩,
      ⟨.send (wireClient.rest.request wireCall (str "T")), .ok ⟨200, [], ascii "\x7b\x7d"⟩⟩] r := by
  have hbody : (⟨200, [], ascii "\x7b\x7d"⟩ : HTTPResponse).json = some (.obj []) := by
    rfl
  have hscope : wireClient.requireScope tradeScope = .ok () := rfl
  have hcapability : TradeStationClient.requireCapability
      wireClient.capabilities.supportsSingleOrders "supports_single_orders" = .ok () := rfl
  have hsingle : validateSingleOrderForConfig buyFields wireClient.config = .ok () :=
    validateSingle_buy
  have hvalid : validateOrderForConfig wireClient.lib wireClient.config (.mk buyFields []) =
      .ret () := by
    rw [validateOrderForConfig, hsingle, validateOrdersForConfig]
    rfl
  unfold TradeStationClient.submit TradeStationClient.placeOrder
  simp only [hscope, hcapability, hvalid, Coro.ofExcept_ok, Coro.ret_bind]
  exact ⟨_, settle_of_runs _ _ (runs_requestJson_answered hbody wireClient.rest wireCall)⟩

/-- One share arrives. -/
theorem submit_arrives_buy : ∃ r : Except Exc TradeStationTrade, ∃ asked payload body,
    (Submission.order (.mk buyFields [])).Asks wireLib asked payload ∧
      (urllibRequest wireLib (wireClient.rest.request wireCall (str "T"))).data = some body ∧
      (urllibRequest wireLib (wireClient.rest.request wireCall (str "T"))).headers.get
        (str "Content-Type") = some (str "application/json") ∧
      received body = some (.obj payload) ∧
      asked.ReadsAs plainPydantic (fun _ => str "u") (str "v") (.obj payload) ∧
      ∀ trade, r = .ok trade → trade.request = asked ∧
        trade.payloadHash = canonicalPayloadHash wireLib payload := by
  obtain ⟨r, hrun⟩ := runs_wired
  have hlib : wireClient.lib.WritesWire fun _ => [] := fun _ => rfl
  have hbuy : OrderRequest.Written wireLib (.mk buyFields []) :=
    .mk ⟨written_of_ascii (by decide), written_of_ascii (by decide), by simp [buyFields, dayOrder],
      by simp [buyFields], by simp [buyFields], by simp [buyFields]⟩ (by simp)
  have hwrite : (wireClient.rest.request wireCall (str "T")).method ≠ str "GET" := by
    show str "POST" ≠ str "GET"
    decide
  refine ⟨r, submit_arrives hlib wireLib_writes plainPydantic_reads _ _ hrun
    (List.mem_cons_of_mem _ (List.mem_singleton.2 rfl)) hwrite ?_⟩
  rintro asked payload ⟨⟩
  refine ⟨hbuy, fun node hnode => ?_⟩
  obtain rfl : node = buyFields := by
    simpa [OrderRequest.nodes, OrderRequest.nodesOf] using hnode
  exact OrderFields.representable_of_none rfl rfl

end TradeStation
