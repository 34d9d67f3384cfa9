import TradeStation.RiskChecks

/-!
# What an accepted submission exposes

Validation looks at one order of a tree at a time, each against the configuration and none against
another. Two things that a caller may expect of a submission as a whole follow only in part.

* `oneAccount_iff`: when an accepted submission stays in the account of its top-level orders.
* `limitPrice_capped_iff`: when the cap on the notional binds the limit price that is sent.
-/

namespace TradeStation

open Python Foundations

/-! ## Acceptance -/

section
variable (lib : Library) (config : TradeStationConfig)

/-- There is a run of `validate_order_for_config` that does not raise. -/
def AcceptsOrder (order : OrderRequest) : Prop :=
  ∃ tr, Coro.Runs (validateOrderForConfig lib config order) tr (.ok ())

/-- There is a run of `validate_group_for_config` that does not raise. -/
def AcceptsGroup (group : GroupOrderRequest) : Prop :=
  ∃ tr, Coro.Runs (validateGroupForConfig lib config group) tr (.ok ())

theorem acceptsOrder_iff (order : OrderRequest) :
    AcceptsOrder lib config order ↔ ∀ node ∈ order.nodes, NodeOk config node := by
  constructor
  · rintro ⟨tr, hrun⟩
    exact ((runs_validateOrderForConfig_ok lib config order tr).1 hrun).1
  · intro h
    exact ⟨_, (runs_validateOrderForConfig_ok lib config order _).2 ⟨h, rfl⟩⟩

theorem acceptsGroup_iff (group : GroupOrderRequest) :
    AcceptsGroup lib config group ↔ ∀ node ∈ group.nodes, NodeOk config node := by
  constructor
  · rintro ⟨tr, hrun⟩
    exact ((runs_validateOrdersForConfig_ok lib config group.orders tr).1 hrun).1
  · intro h
    exact ⟨_, (runs_validateOrdersForConfig_ok lib config group.orders _).2 ⟨h, rfl⟩⟩

end

/-- What accepted nodes have holds of the accepted, or something was not. -/
theorem imp_of_nodes_iff {config : TradeStationConfig} {nodes : List OrderFields}
    {accepted conclusion : Prop} (h : accepted ↔ ∀ node ∈ nodes, NodeOk config node) :
    (accepted → conclusion) ↔ (∃ node ∈ nodes, ¬NodeOk config node) ∨ conclusion := by
  rw [h, imp_iff_not_or]
  push Not
  exact Iff.rfl

/-! ## One account -/

mutual

/-- Every child, at every depth, names the account of the order it hangs under. -/
def OrderRequest.ChildrenFollow : OrderRequest → Prop
  | .mk fields osos => OrderRequest.Follow fields.accountId osos

/-- The orders name the account, and their children follow them. -/
def OrderRequest.Follow (accountId : PyStr) : List OrderRequest → Prop
  | [] => True
  | order :: orders =>
    (order.fields.accountId = accountId ∧ order.ChildrenFollow) ∧
      OrderRequest.Follow accountId orders

end

/-- All of the nodes name the account. -/
def OneAccount (accountId : PyStr) (nodes : List OrderFields) : Prop :=
  ∀ node ∈ nodes, node.accountId = accountId

theorem oneAccount_append {accountId : PyStr} {nodes nodes' : List OrderFields} :
    OneAccount accountId (nodes ++ nodes') ↔
      OneAccount accountId nodes ∧ OneAccount accountId nodes' :=
  List.forall_mem_append

theorem root_mem_nodes (order : OrderRequest) : order.fields ∈ order.nodes := by
  cases order
  simp [OrderRequest.nodes, OrderRequest.fields]

theorem root_mem_nodesOf {order : OrderRequest} {orders : List OrderRequest} (h : order ∈ orders) :
    order.fields ∈ OrderRequest.nodesOf orders := by
  induction orders with
  | nil => cases h
  | cons first orders ih =>
    rw [OrderRequest.nodesOf]
    rcases List.mem_cons.1 h with rfl | h
    · exact List.mem_append_left _ (root_mem_nodes _)
    · exact List.mem_append_right _ (ih h)

mutual

theorem childrenFollow_iff :
    ∀ order : OrderRequest, order.ChildrenFollow ↔ OneAccount order.fields.accountId order.nodes
  | .mk fields osos => by
    rw [OrderRequest.ChildrenFollow, OrderRequest.nodes, follow_iff fields.accountId osos]
    simp [OneAccount, OrderRequest.fields]

theorem follow_iff (accountId : PyStr) :
    ∀ orders : List OrderRequest, OrderRequest.Follow accountId orders ↔
      OneAccount accountId (OrderRequest.nodesOf orders)
  | [] => by simp [OrderRequest.Follow, OneAccount, OrderRequest.nodesOf]
  | order :: orders => by
    rw [OrderRequest.Follow, OrderRequest.nodesOf, oneAccount_append, childrenFollow_iff order,
      follow_iff accountId orders]
    refine and_congr_left fun _ => ⟨?_, fun h => ?_⟩
    · rintro ⟨rfl, h⟩
      exact h
    · obtain rfl : order.fields.accountId = accountId := h _ (root_mem_nodes order)
      exact ⟨rfl, h⟩

end

/-- The members of a group name one account, so that the group stays in it if every member does. -/
theorem group_oneAccount_iff (group : GroupOrderRequest) :
    (∀ order ∈ group.orders, OneAccount order.fields.accountId group.nodes) ↔
      ∀ order ∈ group.orders, order.ChildrenFollow := by
  have hmembers : ∀ order ∈ group.orders, ∀ orders ⊆ group.orders,
      (OrderRequest.Follow order.fields.accountId orders ↔
        ∀ member ∈ orders, member.ChildrenFollow) := by
    intro order horder orders
    induction orders with
    | nil => simp [OrderRequest.Follow]
    | cons member orders ih =>
      intro hsub
      have hsame := group.one_account member (hsub List.mem_cons_self) order horder
      rw [OrderRequest.Follow, ih fun o ho => hsub (List.mem_cons_of_mem _ ho),
        List.forall_mem_cons]
      simp [hsame]
  constructor
  · intro h
    obtain ⟨order, horder⟩ := List.exists_mem_of_ne_nil _ group.nonempty
    refine (hmembers order horder group.orders fun _ ho => ho).1 ?_
    exact (follow_iff _ _).2 (h order horder)
  · intro h order horder
    refine (follow_iff _ _).1 ?_
    exact (hmembers order horder group.orders fun _ ho => ho).2 h

/-- Accepted nodes name the account of a configuration that allows one account only. -/
theorem oneAccount_of_single {config : TradeStationConfig} (hsingle : config.accountAllowlist.length ≤ 1)
    {root : OrderFields} {nodes : List OrderFields} (hroot : root ∈ nodes)
    (haccepted : ∀ node ∈ nodes, NodeOk config node) : OneAccount root.accountId nodes := by
  intro node hnode
  obtain ⟨account, haccount⟩ : ∃ account, config.accountAllowlist = [account] := by
    have hpos := List.length_pos_of_ne_nil config.allowlist_ne
    exact List.length_eq_one_iff.1 (by omega)
  have hallowed : ∀ other ∈ nodes, other.accountId = account := by
    intro other hother
    have hmem := (haccepted other hother).account
    rw [haccount] at hmem
    exact List.mem_singleton.1 hmem
  rw [hallowed node hnode, hallowed root hroot]

/-- **One account.** An order is rejected or stays in its account exactly if one of its nodes is
rejected by itself, or every child names the account of its parent; a group exactly if this is so
of every member. Where the configuration allows one account only, all of them do. -/
theorem oneAccount_iff (lib : Library) (config : TradeStationConfig) :
    (∀ order, (AcceptsOrder lib config order → OneAccount order.fields.accountId order.nodes) ↔
      (∃ node ∈ order.nodes, ¬NodeOk config node) ∨ order.ChildrenFollow) ∧
    (∀ group, (AcceptsGroup lib config group →
        ∀ order ∈ group.orders, OneAccount order.fields.accountId group.nodes) ↔
      (∃ node ∈ group.nodes, ¬NodeOk config node) ∨
        ∀ order ∈ group.orders, order.ChildrenFollow) ∧
    (config.accountAllowlist.length ≤ 1 →
      (∀ order, AcceptsOrder lib config order → OneAccount order.fields.accountId order.nodes) ∧
      ∀ group, AcceptsGroup lib config group →
        ∀ order ∈ group.orders, OneAccount order.fields.accountId group.nodes) := by
  refine ⟨fun order => ?_, fun group => ?_, fun hsingle => ⟨fun order haccepts => ?_,
    fun group haccepts order horder => ?_⟩⟩
  · rw [childrenFollow_iff]
    exact imp_of_nodes_iff (acceptsOrder_iff lib config order)
  · rw [← group_oneAccount_iff]
    exact imp_of_nodes_iff (acceptsGroup_iff lib config group)
  · exact oneAccount_of_single hsingle (root_mem_nodes order)
      ((acceptsOrder_iff lib config order).1 haccepts)
  · have hroot : order.fields ∈ group.nodes := root_mem_nodesOf horder
    exact oneAccount_of_single hsingle hroot ((acceptsGroup_iff lib config group).1 haccepts)

/-- A configuration that may trade two accounts. -/
def twoAccounts : TradeStationConfig :=
  { simConfig with
    accountAllowlist := [str "SIM1", str "SIM2"]
    allowlist_ne := by decide
    allowlist_clean := by decide
    allowlist_nodup := by decide }

/-- The same order for the other account. -/
def otherAccountFields : OrderFields :=
  { buyFields with accountId := str "SIM2", accountId_clean := by decide }

/-- A child goes to the other account. -/
theorem accepts_otherAccount :
    ¬∀ (lib : Library) (config : TradeStationConfig) (order : OrderRequest),
      AcceptsOrder lib config order → OneAccount order.fields.accountId order.nodes := by
  intro h
  have hparent : NodeOk twoAccounts buyFields :=
    nodeOk_iff.2 ⟨by decide, validateSingle_buy⟩
  have hchild : NodeOk twoAccounts otherAccountFields :=
    nodeOk_iff.2 ⟨by decide, validateSingle_buy⟩
  have haccepts := (acceptsOrder_iff simTradeClient.lib twoAccounts
    (.mk buyFields [.mk otherAccountFields []])).2 (by
      simp [OrderRequest.nodes, OrderRequest.nodesOf, hparent, hchild])
  have hsame := h _ _ _ haccepts otherAccountFields
    (by simp [OrderRequest.nodes, OrderRequest.nodesOf])
  exact absurd hsame (by decide)

/-! ## The cap and the price that is sent -/

/-- `quantity * price` is a number within the cap. -/
def WithinCap (config : TradeStationConfig) (quantity price : Decimal) : Prop :=
  ∃ value, quantity.mul price = some value ∧ value.toRat ≤ config.maxOrderNotional.toRat

/-- Where the payload carries a `LimitPrice`, the cap binds it. -/
def LimitCapped (config : TradeStationConfig) (order : OrderFields) : Prop :=
  ∀ price ∈ order.limitPrice, WithinCap config order.quantity price

/-- The estimate keeps within the cap an order whose `LimitPrice` does not. -/
def Understated (config : TradeStationConfig) (order : OrderFields) : Prop :=
  ∃ estimate ∈ order.estimatedPrice, ∃ price ∈ order.limitPrice,
    WithinCap config order.quantity estimate ∧ ¬WithinCap config order.quantity price

/-- The estimate is looked at before the limit price, and instead of it. -/
theorem limitCapped_iff {config : TradeStationConfig} {order : OrderFields}
    (hok : NodeOk config order) : LimitCapped config order ↔ ¬Understated config order := by
  constructor
  · rintro h ⟨estimate, -, price, hprice, -, hnot⟩
    exact hnot (h price hprice)
  · intro hnot price hprice
    by_contra hover
    have hrisk := hok.notional
    cases hestimate : order.estimatedPrice with
    | none =>
      have hlimit : order.riskPrice = some price := by
        simp [OrderFields.riskPrice, hestimate, Option.mem_def.1 hprice]
      exact hover (hrisk price hlimit)
    | some estimate =>
      have hfirst : order.riskPrice = some estimate := by
        simp [OrderFields.riskPrice, hestimate]
      exact hnot ⟨estimate, hestimate, price, hprice, hrisk estimate hfirst, hover⟩

/-- The replacement's limit price is the first that is looked at. -/
theorem replacement_limitCapped {config : TradeStationConfig} {replacement : OrderReplaceRequest}
    (h : validateReplaceForConfig replacement config = .ok ()) :
    ∀ quantity ∈ replacement.quantity, ∀ price ∈ replacement.limitPrice,
      WithinCap config quantity price := by
  intro quantity hquantity price hprice
  obtain ⟨-, hcheck⟩ := bind_unit_ok.1 h
  obtain ⟨value, hvalue, hcap⟩ := checkNotional_ok.1 hcheck
  have hlimit := decimalOr_eq replacement.stopPrice replacement.limitPrice_pos
  rw [estimatedReplaceNotional, hlimit, Option.mem_def.1 hquantity, Option.mem_def.1 hprice,
    Option.some_or, notional, Option.map_eq_some_iff] at hvalue
  obtain ⟨product, hproduct, rfl⟩ := hvalue
  exact ⟨product, hproduct, hcap product rfl⟩

/-- **The cap binds the limit price** of every node of an accepted order exactly if no estimate
hides one beyond it; of an accepted replacement it always does. -/
theorem limitPrice_capped_iff (lib : Library) (config : TradeStationConfig) :
    (∀ order, (AcceptsOrder lib config order → ∀ node ∈ order.nodes, LimitCapped config node) ↔
      (∃ node ∈ order.nodes, ¬NodeOk config node) ∨
        ∀ node ∈ order.nodes, ¬Understated config node) ∧
    ∀ replacement, validateReplaceForConfig replacement config = .ok () →
      ∀ quantity ∈ replacement.quantity, ∀ price ∈ replacement.limitPrice,
        WithinCap config quantity price := by
  refine ⟨fun order => ?_, fun replacement => replacement_limitCapped⟩
  rw [imp_of_nodes_iff (acceptsOrder_iff lib config order)]
  refine or_congr_right' fun hok => ?_
  push Not at hok
  exact forall₂_congr fun node hnode => limitCapped_iff (hok node hnode)

theorem understated_pos : Positive (some (.ofNat 1001)) := by
  decide

theorem understated_limitPrice :
    buyFields.orderType = .limit → some (Decimal.ofNat 1001) ≠ none := by
  simp

theorem understated_prices : buyFields.orderType = .stopLimit →
    some (Decimal.ofNat 1001) ≠ none ∧ buyFields.stopPrice ≠ none := by
  simp [buyFields]

/-- A thousand and one dollars, and an estimate of ten. -/
def understatedFields : OrderFields :=
  { buyFields with
    limitPrice := some (.ofNat 1001)
    estimatedPrice := some (.ofNat 10)
    limitPrice_pos := understated_pos
    estimatedPrice_pos := buyFields.limitPrice_pos
    limit_price := understated_limitPrice
    both_prices := understated_prices }

/-- The cap of a thousand dollars lets it pass. -/
theorem accepts_understated :
    ¬∀ (lib : Library) (config : TradeStationConfig) (order : OrderRequest),
      AcceptsOrder lib config order → ∀ node ∈ order.nodes, LimitCapped config node := by
  intro h
  have hok : NodeOk simConfig understatedFields :=
    nodeOk_iff.2 ⟨by decide, validateSingle_buy⟩
  have haccepts := (acceptsOrder_iff simTradeClient.lib simConfig (.mk understatedFields [])).2 (by
    simp [OrderRequest.nodes, OrderRequest.nodesOf, hok])
  obtain ⟨value, hmul, hcap⟩ := h _ _ _ haccepts understatedFields
    (by simp [OrderRequest.nodes, OrderRequest.nodesOf]) (.ofNat 1001) rfl
  have hvalue : understatedFields.quantity.mul (.ofNat 1001) = some (.ofNat 1001) := by decide
  rw [hvalue] at hmul
  cases hmul
  norm_num [Decimal.toRat, Decimal.ofNat, simConfig] at hcap

end TradeStation
