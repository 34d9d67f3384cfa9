import TradeStation.Client
import TradeStation.Submissions

/-!
# The risk checks of a submission

What validation asks of an order it asks of every node of the tree: `NodeOk`. It looks for the kill
switch once at each of them.

* `runs_validateOrderForConfig_ok`: validation succeeds exactly if every node passes and every look
  finds no file. `runs_validateOrdersForConfig_ok` says so of several trees.
* `FailsClosed`: a call that hands in an order raises before anything leaves, unless every node has
  passed. `validation_exact` puts the two together.
-/

namespace TradeStation

open Python Foundations

/-! ## What a node must satisfy -/

/-- The price that the notional of an order is computed with. -/
def OrderFields.riskPrice (order : OrderFields) : Option Decimal :=
  (order.estimatedPrice.or order.limitPrice).or order.stopPrice

/-- What the configuration asks of one order of a tree. -/
structure NodeOk (config : TradeStationConfig) (order : OrderFields) : Prop where
  account : order.accountId ∈ config.accountAllowlist
  assetClass : order.assetClass ≠ .unknown
  market : order.orderType = .market →
    config.allowMarketOrders = true ∧ order.estimatedPrice ≠ none
  option : order.assetClass = .option → config.allowOptions = true
  future : order.assetClass = .future → config.allowFutures = true
  extendedHours : order.timeInForce.duration ∈ extendedHoursDurations →
    config.allowExtendedHours = true
  notional : ∀ price ∈ order.riskPrice, ∃ value, order.quantity.mul price = some value ∧
    value.toRat ≤ config.maxOrderNotional.toRat

mutual

/-- The nodes of an order, itself first. -/
def OrderRequest.nodes : OrderRequest → List OrderFields
  | .mk fields osos => fields :: OrderRequest.nodesOf osos

/-- The nodes of some orders. -/
def OrderRequest.nodesOf : List OrderRequest → List OrderFields
  | [] => []
  | order :: orders => order.nodes ++ OrderRequest.nodesOf orders

end

/-- Looking for the kill switch at each of some nodes, and finding no file. -/
def looks (config : TradeStationConfig) (nodes : List OrderFields) : Trace Op Op.Answer :=
  nodes.flatMap fun _ => (config.killSwitchFile.map fun path => ⟨.exists path, false⟩).toList

/-- The nodes pass, and no look has found the file. -/
def Passes (config : TradeStationConfig) (nodes : List OrderFields) (tr : Trace Op Op.Answer) :
    Prop :=
  (∀ node ∈ nodes, NodeOk config node) ∧ tr = looks config nodes

/-! ## One node -/

theorem rejectIf_ok {condition : Bool} {message : String} :
    rejectIf condition message = .ok () ↔ condition = false := by
  cases condition <;> simp [rejectIf]

theorem bind_unit_ok {x : Except Exc Unit} {f : Unit → Except Exc Unit} :
    (x >>= f) = .ok () ↔ x = .ok () ∧ f () = .ok () := by
  cases x with
  | ok a => simp [bind, Except.bind]
  | error e => simp [bind, Except.bind]

theorem checkNotional_ok {config : TradeStationConfig} {subject : PyStr}
    {value : Option (Option Decimal)} :
    checkNotional config subject value = .ok () ↔
      ∃ value', value = some value' ∧
        ∀ d ∈ value', d.toRat ≤ config.maxOrderNotional.toRat := by
  rcases value with _ | _ | value
  · simp [checkNotional]
  · simp [checkNotional]
  · simp [checkNotional, Decimal.gt]

/-- A positive price is truthy, so that `or` takes the first that is there. -/
theorem decimalOr_eq {left : Option Decimal} (right : Option Decimal) (hleft : Positive left) :
    decimalOr left right = left.or right := by
  cases left with
  | none => rfl
  | some price =>
    have hpos := hleft price rfl
    have htruthy : price.truthy = true := by
      simp only [Decimal.nonpos, Bool.or_eq_false_iff, beq_eq_false_iff_ne] at hpos
      simpa [Decimal.truthy] using hpos.2
    simp [decimalOr, htruthy]

theorem positive_or {left right : Option Decimal} (hleft : Positive left)
    (hright : Positive right) : Positive (left.or right) := by
  cases left with
  | none => exact hright
  | some price => exact hleft

theorem estimatedNotional_eq (order : OrderFields) :
    estimatedNotional order = notional (some order.quantity) order.riskPrice := by
  have hfirst := decimalOr_eq order.limitPrice order.estimatedPrice_pos
  have hboth := positive_or order.estimatedPrice_pos order.limitPrice_pos
  rw [estimatedNotional, hfirst, decimalOr_eq _ hboth, OrderFields.riskPrice]

theorem checkNotional_order_ok {config : TradeStationConfig} {order : OrderFields} :
    checkNotional config (str "order") (estimatedNotional order) = .ok () ↔
      ∀ price ∈ order.riskPrice, ∃ value, order.quantity.mul price = some value ∧
        value.toRat ≤ config.maxOrderNotional.toRat := by
  rw [checkNotional_ok, estimatedNotional_eq]
  cases order.riskPrice with
  | none => simp [notional]
  | some price => cases hmul : order.quantity.mul price <;> simp [notional, hmul]

/-- **One node.** The configuration's checks and those of the order let it pass exactly if it is
one that may. -/
theorem nodeOk_iff {config : TradeStationConfig} {order : OrderFields} :
    NodeOk config order ↔ order.accountId ∈ config.accountAllowlist ∧
      validateSingleOrderForConfig order config = .ok () := by
  simp only [validateSingleOrderForConfig, bind_unit_ok, rejectIf_ok, checkNotional_order_ok]
  constructor
  · intro h
    refine ⟨h.account, ?_, ?_, ?_, ?_, ?_, h.notional, ?_⟩
    · simpa using h.assetClass
    · simpa using fun hmarket => (h.market hmarket).1
    · simpa using h.option
    · simpa using h.future
    · simpa using h.extendedHours
    · have hpriced := fun hmarket => (h.market hmarket).2
      simpa [Option.isSome_iff_ne_none] using hpriced
  · rintro ⟨haccount, hasset, hmarket, hoption, hfuture, hextended, hnotional, hpriced⟩
    have hallowed : order.orderType = .market → config.allowMarketOrders = true := by
      simpa using hmarket
    have hprice : order.orderType = .market → order.estimatedPrice ≠ none := by
      simpa [Option.isSome_iff_ne_none] using hpriced
    exact
      { account := haccount
        assetClass := by simpa using hasset
        market := fun h => ⟨hallowed h, hprice h⟩
        option := by simpa using hoption
        future := by simpa using hfuture
        extendedHours := by simpa using hextended
        notional := hnotional }

/-- Looking for the kill switch once, and finding no file. -/
def look (config : TradeStationConfig) : Trace Op Op.Answer :=
  (config.killSwitchFile.map fun path => ⟨.exists path, false⟩).toList

theorem looks_singleton (config : TradeStationConfig) (node : OrderFields) :
    looks config [node] = look config :=
  List.flatMap_singleton _ _

theorem runs_assertCanSubmitOrders_ok {config : TradeStationConfig} {lib : Library}
    {accountId : PyStr} {tr : Trace Op Op.Answer} :
    Coro.Runs (config.assertCanSubmitOrders lib accountId) tr (.ok ()) ↔
      accountId ∈ config.accountAllowlist ∧ tr = look config := by
  rw [TradeStationConfig.assertCanSubmitOrders, Coro.runs_check_bind_ok]
  have hallowed : config.assertAccountAllowed lib accountId = .ok () ↔
      accountId ∈ config.accountAllowlist := by
    unfold TradeStationConfig.assertAccountAllowed
    split_ifs with hmem <;> simp [hmem]
  cases hfile : config.killSwitchFile with
  | none => simp [hallowed, look, hfile]
  | some path =>
    simp only [hallowed, look, hfile, exists_const]
    refine and_congr_right fun _ => ?_
    constructor
    · rintro ⟨active, rest, rfl, h⟩
      cases active with
      | true => cases h.2
      | false =>
        rw [h.1]
        rfl
    · rintro rfl
      exact ⟨false, [], rfl, rfl, rfl⟩

/-! ## Trees -/

theorem looks_append (config : TradeStationConfig) (nodes nodes' : List OrderFields) :
    looks config (nodes ++ nodes') = looks config nodes ++ looks config nodes' :=
  List.flatMap_append

/-- What passes in two parts. -/
theorem passes_append {config : TradeStationConfig} {nodes nodes' : List OrderFields}
    {tr : Trace Op Op.Answer} :
    Passes config (nodes ++ nodes') tr ↔
      ∃ tr₁ tr₂, tr = tr₁ ++ tr₂ ∧ Passes config nodes tr₁ ∧ Passes config nodes' tr₂ := by
  simp only [Passes, looks_append, List.mem_append]
  constructor
  · rintro ⟨h, rfl⟩
    exact ⟨_, _, rfl, ⟨fun node hnode => h node (.inl hnode), rfl⟩,
      fun node hnode => h node (.inr hnode), rfl⟩
  · rintro ⟨_, _, rfl, ⟨h, rfl⟩, h', rfl⟩
    exact ⟨fun node hnode => hnode.elim (h node) (h' node), rfl⟩

mutual

/-- **Validation is exact.** -/
theorem runs_validateOrderForConfig_ok (lib : Library) (config : TradeStationConfig) :
    ∀ (order : OrderRequest) (tr : Trace Op Op.Answer),
      Coro.Runs (validateOrderForConfig lib config order) tr (.ok ()) ↔
        Passes config order.nodes tr
  | .mk fields osos, tr => by
    have hnode : ∀ tr₁, Passes config [fields] tr₁ ↔
        Coro.Runs (config.assertCanSubmitOrders lib fields.accountId) tr₁ (.ok ()) ∧
          validateSingleOrderForConfig fields config = .ok () := by
      intro tr₁
      rw [runs_assertCanSubmitOrders_ok, Passes, List.forall_mem_singleton, nodeOk_iff,
        looks_singleton]
      exact and_right_comm
    have hosos := runs_validateOrdersForConfig_ok lib config osos
    rw [validateOrderForConfig, OrderRequest.nodes, ← List.singleton_append, passes_append,
      Coro.runs_bind_ok]
    constructor
    · rintro ⟨_, tr₁, tr₂, rfl, hcan, h⟩
      obtain ⟨_, hsingle, hrest⟩ := Coro.runs_check_bind_ok.1 h
      exact ⟨tr₁, tr₂, rfl, (hnode tr₁).2 ⟨hcan, hsingle⟩, (hosos tr₂).1 hrest⟩
    · rintro ⟨tr₁, tr₂, rfl, hpasses, hrest⟩
      obtain ⟨hcan, hsingle⟩ := (hnode tr₁).1 hpasses
      exact ⟨(), tr₁, tr₂, rfl, hcan,
        Coro.runs_check_bind_ok.2 ⟨(), hsingle, (hosos tr₂).2 hrest⟩⟩

theorem runs_validateOrdersForConfig_ok (lib : Library) (config : TradeStationConfig) :
    ∀ (orders : List OrderRequest) (tr : Trace Op Op.Answer),
      Coro.Runs (validateOrdersForConfig lib config orders) tr (.ok ()) ↔
        Passes config (OrderRequest.nodesOf orders) tr
  | [], tr => by
    rw [validateOrdersForConfig, OrderRequest.nodesOf]
    simp [Passes, looks]
  | order :: orders, tr => by
    have horder := runs_validateOrderForConfig_ok lib config order
    have horders := runs_validateOrdersForConfig_ok lib config orders
    rw [validateOrdersForConfig, OrderRequest.nodesOf, passes_append, Coro.runs_bind_ok]
    constructor
    · rintro ⟨_, tr₁, tr₂, rfl, h₁, h₂⟩
      exact ⟨tr₁, tr₂, rfl, (horder tr₁).1 h₁, (horders tr₂).1 h₂⟩
    · rintro ⟨tr₁, tr₂, rfl, h₁, h₂⟩
      exact ⟨(), tr₁, tr₂, rfl, (horder tr₁).2 h₁, (horders tr₂).2 h₂⟩

end

/-- The nodes of the members of a group. -/
def GroupOrderRequest.nodes (group : GroupOrderRequest) : List OrderFields :=
  OrderRequest.nodesOf group.orders

/-! ## Calls that hand in an order -/

/-- Looking for a file. -/
def Op.IsLook : Op → Prop
  | .exists _ => True
  | _ => False

/-- Every run either lets all the nodes pass to begin with, or raises and does nothing but look for
the kill switch: neither the token provider nor the transport is touched. -/
def FailsClosed {α : Type} (config : TradeStationConfig) (nodes : List OrderFields)
    (p : Program α) : Prop :=
  ∀ tr r, Coro.Runs p tr r →
    (∃ tr₁ tr₂, tr = tr₁ ++ tr₂ ∧ Passes config nodes tr₁) ∨
      (∃ exc, r = .error exc) ∧ ∀ event ∈ tr, event.op.IsLook

section
variable {α : Type} {config : TradeStationConfig} {nodes : List OrderFields}

/-- The checks in front are passed only where all the nodes are. -/
theorem failsClosed_of_leads {p : Program α}
    (h : Coro.Leads Op.IsLook (fun tr _ _ => Passes config nodes tr) p) :
    FailsClosed config nodes p := by
  intro tr r hrun
  rcases h tr r hrun with hraised | ⟨tr₁, tr₂, rfl, -, hpasses⟩
  · exact .inr hraised
  · exact .inl ⟨tr₁, tr₂, rfl, hpasses⟩

theorem leads_validated {validation : Program Unit} {f : Unit → Program α}
    (hexact : ∀ tr, Coro.Runs validation tr (.ok ()) → Passes config nodes tr)
    (honly : Coro.Only Op.IsLook validation) :
    Coro.Leads Op.IsLook (fun tr _ _ => Passes config nodes tr) (validation >>= f) := by
  refine .bind honly fun _ tr₁ hok => Coro.leads_here fun _ _ _ => ?_
  rw [List.append_nil]
  exact hexact tr₁ hok

end

section
variable (client : TradeStationClient)

theorem leads_order {α : Type} (order : OrderRequest) (f : Unit → Program α) :
    Coro.Leads Op.IsLook (fun tr _ _ => Passes client.config order.nodes tr)
      (validateOrderForConfig client.lib client.config order >>= f) := by
  apply leads_validated
  · intro tr h
    exact (runs_validateOrderForConfig_ok client.lib client.config order tr).1 h
  · exact only_validateOrderForConfig (fun _ => trivial) client.lib client.config order

theorem leads_group {α : Type} (group : GroupOrderRequest) (f : Unit → Program α) :
    Coro.Leads Op.IsLook (fun tr _ _ => Passes client.config group.nodes tr)
      (validateGroupForConfig client.lib client.config group >>= f) := by
  apply leads_validated
  · intro tr h
    exact (runs_validateOrdersForConfig_ok client.lib client.config group.orders tr).1 h
  · exact only_validateOrdersForConfig (fun _ => trivial) client.lib client.config group.orders

/-- **Validation is exact and fails closed.** A run of it succeeds exactly if every node of every
tree passes with the kill switch looked for and absent at each; and a call that hands in a tree of
which this does not hold raises with nothing sent. -/
theorem validation_exact :
    (∀ order tr r, Coro.Runs (validateOrderForConfig client.lib client.config order) tr r →
      (r = .ok () ↔ Passes client.config order.nodes tr)) ∧
    (∀ group tr r, Coro.Runs (validateGroupForConfig client.lib client.config group) tr r →
      (r = .ok () ↔ Passes client.config group.nodes tr)) ∧
    (∀ order, FailsClosed client.config order.nodes (client.confirmOrder order) ∧
      FailsClosed client.config order.nodes (client.placeOrder order)) ∧
    ∀ group, FailsClosed client.config group.nodes (client.confirmOrderGroup group) ∧
      FailsClosed client.config group.nodes (client.placeOrderGroup group) := by
  refine ⟨?_, ?_, fun order => ⟨?_, ?_⟩, fun group => ⟨?_, ?_⟩⟩
  · intro order tr r h
    rw [← runs_validateOrderForConfig_ok client.lib client.config order tr]
    exact ⟨fun hr => hr ▸ h, fun hok => h.unique hok⟩
  · intro group tr r h
    rw [GroupOrderRequest.nodes, ← runs_validateOrdersForConfig_ok client.lib client.config group.orders tr]
    exact ⟨fun hr => hr ▸ h, fun hok => h.unique hok⟩
  · apply failsClosed_of_leads
    exact .check fun _ _ => .check fun _ _ => leads_order client order _
  · apply failsClosed_of_leads
    exact .check fun _ _ => .check fun _ _ => leads_order client order _
  · apply failsClosed_of_leads
    exact .check fun _ _ => .check fun _ _ => .check fun _ _ => leads_group client group _
  · apply failsClosed_of_leads
    exact .check fun _ _ => .check fun _ _ => leads_group client group _

end

end TradeStation
