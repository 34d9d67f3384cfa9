import TradeStation.Wire

/-!
# Order builders

The functions that build orders and groups of them out of single values.

* `orderRequest_ok`: what a builder returns is the leg that it was asked for, where the validators accept it.
* `ocoExitGroup_ok`: an exit group is two ways out of one position.
* `bracketOrderGroup_ok_iff`: when a bracket is built.
* `bracket_arrives`: a bracket that is placed arrives as an entry and two exits, and either of these leaves
  the position as it was.
-/

namespace TradeStation

open Python Foundations

/-! ## Building orders -/

/-- What a builder is called with, but for the prices. A duration that is left out has the builder's own
default. -/
structure OrderParams where
  accountId : PyStr
  symbol : PyStr
  quantity : Decimal
  action : TradeAction
  duration : Option Duration := none
  route : Option PyStr := none
  assetClass : AssetClass := .equity

/-- What an order is to be. -/
structure Leg where
  accountId : PyStr
  symbol : PyStr
  quantity : Decimal
  orderType : OrderType
  action : TradeAction
  duration : Duration
  limitPrice : Option Decimal := none
  stopPrice : Option Decimal := none
  estimatedPrice : Option Decimal := none
  route : Option PyStr
  assetClass : AssetClass

/-- The validators of `OrderRequest` and of `TimeInForce` accept the leg. -/
structure Leg.Accepted (leg : Leg) : Prop where
  undated : leg.duration ≠ .gtd ∧ leg.duration ≠ .gtdPlus
  accountId : strip leg.accountId ≠ []
  symbol : strip leg.symbol ≠ []
  quantity : leg.quantity.nonpos = false
  limitPrice : Positive leg.limitPrice
  stopPrice : Positive leg.stopPrice
  estimatedPrice : Positive leg.estimatedPrice
  limit : leg.orderType = .limit → leg.limitPrice ≠ none
  stop : leg.orderType = .stopMarket → leg.stopPrice ≠ none
  both : leg.orderType = .stopLimit → leg.limitPrice ≠ none ∧ leg.stopPrice ≠ none

theorem Leg.accepted_iff (leg : Leg) :
    leg.Accepted ↔ (leg.duration ≠ .gtd ∧ leg.duration ≠ .gtdPlus) ∧
      (strip leg.accountId ≠ [] ∧ strip leg.symbol ≠ []) ∧
      (leg.quantity.nonpos = false ∧ Positive leg.limitPrice ∧ Positive leg.stopPrice ∧
        Positive leg.estimatedPrice) ∧
      (leg.orderType = .limit → leg.limitPrice ≠ none) ∧
      (leg.orderType = .stopMarket → leg.stopPrice ≠ none) ∧
      (leg.orderType = .stopLimit → leg.limitPrice ≠ none ∧ leg.stopPrice ≠ none) :=
  ⟨fun ⟨h, ha, hs, hq, hl, hp, he, h₁, h₂, h₃⟩ => ⟨h, ⟨ha, hs⟩, ⟨hq, hl, hp, he⟩, h₁, h₂, h₃⟩,
    fun ⟨h, ⟨ha, hs⟩, ⟨hq, hl, hp, he⟩, h₁, h₂, h₃⟩ => ⟨h, ha, hs, hq, hl, hp, he, h₁, h₂, h₃⟩⟩

instance : DecidablePred Leg.Accepted := fun leg => decidable_of_iff' _ leg.accepted_iff

/-- The fields of an accepted leg. -/
def Leg.fields (leg : Leg) (requestId : PyStr) (h : leg.Accepted) : OrderFields where
  accountId := strip leg.accountId
  symbol := strip leg.symbol
  quantity := leg.quantity
  orderType := leg.orderType
  tradeAction := leg.action
  timeInForce :=
    { duration := leg.duration, dated := fun hdated => (hdated.elim h.undated.1 h.undated.2).elim }
  limitPrice := leg.limitPrice
  stopPrice := leg.stopPrice
  route := leg.route
  requestId := requestId
  assetClass := leg.assetClass
  estimatedPrice := leg.estimatedPrice
  accountId_clean := ⟨h.accountId, strip_strip leg.accountId⟩
  symbol_clean := ⟨h.symbol, strip_strip leg.symbol⟩
  quantity_pos := h.quantity
  limitPrice_pos := h.limitPrice
  stopPrice_pos := h.stopPrice
  estimatedPrice_pos := h.estimatedPrice
  limit_price := h.limit
  stop_price := h.stop
  both_prices := h.both

/-- `OrderRequest(...)` of a leg; `requestId` is the `UUID` that is drawn. -/
def orderRequest (requestId : PyStr) (leg : Leg) : Except Exc OrderRequest :=
  if h : leg.Accepted then .ok (.mk (leg.fields requestId h) []) else .error .validation

/-- `limit_order`. -/
def limitOrder (requestId : PyStr) (params : OrderParams) (limitPrice : Decimal) :
    Except Exc OrderRequest :=
  orderRequest requestId
    { params with
      orderType := .limit, duration := params.duration.getD .day, limitPrice := some limitPrice }

/-- `market_order`. -/
def marketOrder (requestId : PyStr) (params : OrderParams) (estimatedPrice : Decimal) :
    Except Exc OrderRequest :=
  orderRequest requestId
    { params with
      orderType := .market, duration := params.duration.getD .day, estimatedPrice := some estimatedPrice }

/-- `stop_market_order`. -/
def stopMarketOrder (requestId : PyStr) (params : OrderParams) (stopPrice : Decimal) :
    Except Exc OrderRequest :=
  orderRequest requestId
    { params with
      orderType := .stopMarket, duration := params.duration.getD .gtc, stopPrice := some stopPrice }

/-- `stop_limit_order`. -/
def stopLimitOrder (requestId : PyStr) (params : OrderParams) (stopPrice limitPrice : Decimal) :
    Except Exc OrderRequest :=
  orderRequest requestId
    { params with
      orderType := .stopLimit, duration := params.duration.getD .gtc, stopPrice := some stopPrice
      limitPrice := some limitPrice }

/-! ## Building groups -/

/-- `GroupOrderRequest(...)`; `requestId` is the `UUID` that is drawn. -/
def groupOrderRequest (requestId : PyStr) (type : GroupType) (orders : List OrderRequest) :
    Except Exc GroupOrderRequest :=
  if h : (orders ≠ [] ∧ (type = .oco → 2 ≤ orders.length) ∧
        (type = .bracket → 3 ≤ orders.length)) ∧
      (∀ o ∈ orders, ∀ o' ∈ orders, o.fields.accountId = o'.fields.accountId) ∧
      (∀ o ∈ orders, ∀ o' ∈ orders, o.fields.symbol = o'.fields.symbol) then
    .ok
      { type, orders, requestId, nonempty := h.1.1, oco := h.1.2.1, bracket := h.1.2.2,
        one_account := h.2.1, one_symbol := h.2.2 }
  else .error .validation

/-- `one_cancels_all`. -/
def oneCancelsAll (requestId : PyStr) (orders : List OrderRequest) : Except Exc GroupOrderRequest :=
  groupOrderRequest requestId .oco orders

/-- `oco_exit_group`; `uuid4` are the `UUID`s that are drawn, in order. -/
def ocoExitGroup (uuid4 : ℕ → PyStr) (params : OrderParams) (targetPrice stopPrice : Decimal) :
    Except Exc GroupOrderRequest := do
  let exits := { params with duration := some (params.duration.getD .gtc) }
  let target ← limitOrder (uuid4 0) exits targetPrice
  let stop ← stopMarketOrder (uuid4 1) exits stopPrice
  groupOrderRequest (uuid4 2) .oco [target, stop]

/-- `protective_exit_action`. -/
def protectiveExitAction : TradeAction → Except Exc TradeAction
  | .buy => .ok .sell
  | .sellShort => .ok .buyToCover
  | .buyToOpen => .ok .sellToClose
  | .sellToOpen => .ok .buyToClose
  | action => .error (.requestValidation (action.value ++ str " is not an opening action"))

/-- What `bracket_order_group` is called with. -/
structure BracketParams where
  accountId : PyStr
  symbol : PyStr
  quantity : Decimal
  entryAction : TradeAction
  entryLimitPrice : Decimal
  targetPrice : Decimal
  stopPrice : Decimal
  duration : Duration := .gtc
  entryDuration : Duration := .day
  exitDuration : Option Duration := none
  route : Option PyStr := none
  assetClass : AssetClass := .equity

namespace BracketParams

variable (params : BracketParams)

/-- What the builders of the orders are called with. -/
def order (action : TradeAction) (duration : Duration) : OrderParams :=
  { params with action := action, duration := some duration }

/-- `resolved_exit_duration`. -/
def resolvedExitDuration : Duration := params.exitDuration.getD params.duration

end BracketParams

/-- `bracket_order_group`. -/
def bracketOrderGroup (uuid4 : ℕ → PyStr) (params : BracketParams) : Except Exc GroupOrderRequest := do
  let exitAction ← protectiveExitAction params.entryAction
  let exits := params.order exitAction params.resolvedExitDuration
  let parent ← limitOrder (uuid4 0) (params.order params.entryAction params.entryDuration)
    params.entryLimitPrice
  let target ← limitOrder (uuid4 1) exits params.targetPrice
  let stop ← stopMarketOrder (uuid4 2) exits params.stopPrice
  groupOrderRequest (uuid4 3) .bracket [parent, target, stop]

/-! ## What is built -/

theorem orderRequest_ok {requestId : PyStr} {leg : Leg} {order : OrderRequest} :
    orderRequest requestId leg = .ok order ↔
      ∃ h : leg.Accepted, order = .mk (leg.fields requestId h) [] := by
  unfold orderRequest
  split_ifs with h
  · exact ⟨fun heq => ⟨h, (Except.ok.inj heq).symm⟩, fun ⟨_, heq⟩ => congrArg _ heq.symm⟩
  · exact ⟨fun heq => (by cases heq), fun ⟨haccepted, _⟩ => absurd haccepted h⟩

theorem groupOrderRequest_ok {requestId : PyStr} {type : GroupType} {orders : List OrderRequest}
    {group : GroupOrderRequest} (h : groupOrderRequest requestId type orders = .ok group) :
    group.type = type ∧ group.orders = orders := by
  unfold groupOrderRequest at h
  split at h
  · cases h
    exact ⟨rfl, rfl⟩
  · cases h

theorem except_bind_ok {α β : Type} {x : Except Exc α} {f : α → Except Exc β} {b : β} :
    (x >>= f) = .ok b ↔ ∃ a, x = .ok a ∧ f a = .ok b := by
  cases x with
  | error exc => exact ⟨fun h => (by cases h), fun ⟨_, h, _⟩ => (by cases h)⟩
  | ok a =>
    refine ⟨fun h => ⟨a, rfl, h⟩, ?_⟩
    rintro ⟨_, ⟨⟩, h⟩
    exact h

theorem positive_some {d : Decimal} : Positive (some d) ↔ d.nonpos = false := by
  simp [Positive]

/-- A limit order, as a leg. -/
def limitLeg (params : OrderParams) (duration : Duration) (limitPrice : Decimal) : Leg :=
  { params with orderType := .limit, duration := duration, limitPrice := some limitPrice }

/-- A stop-market order, as a leg. -/
def stopMarketLeg (params : OrderParams) (duration : Duration) (stopPrice : Decimal) : Leg :=
  { params with orderType := .stopMarket, duration := duration, stopPrice := some stopPrice }

/-- What the validators ask of what all builders are called with. -/
structure OrderParams.Accepted (params : OrderParams) (duration : Duration) : Prop where
  undated : duration ≠ .gtd ∧ duration ≠ .gtdPlus
  accountId : strip params.accountId ≠ []
  symbol : strip params.symbol ≠ []
  quantity : params.quantity.nonpos = false

section
variable {params : OrderParams} {duration : Duration} {price : Decimal}

theorem limitLeg_accepted :
    (limitLeg params duration price).Accepted ↔ params.Accepted duration ∧ price.nonpos = false := by
  constructor
  · intro h
    exact ⟨⟨h.undated, h.accountId, h.symbol, h.quantity⟩, positive_some.1 h.limitPrice⟩
  · rintro ⟨h, hprice⟩
    exact ⟨h.undated, h.accountId, h.symbol, h.quantity, positive_some.2 hprice, positive_none,
      positive_none, by simp [limitLeg], by simp [limitLeg], by simp [limitLeg]⟩

theorem stopMarketLeg_accepted :
    (stopMarketLeg params duration price).Accepted ↔
      params.Accepted duration ∧ price.nonpos = false := by
  constructor
  · intro h
    exact ⟨⟨h.undated, h.accountId, h.symbol, h.quantity⟩, positive_some.1 h.stopPrice⟩
  · rintro ⟨h, hprice⟩
    exact ⟨h.undated, h.accountId, h.symbol, h.quantity, positive_none, positive_some.2 hprice,
      positive_none, by simp [stopMarketLeg], by simp [stopMarketLeg], by simp [stopMarketLeg]⟩

end

/-! ## Brackets -/

namespace BracketParams

variable (params : BracketParams)

/-- The entry. -/
def entryLeg : Leg :=
  limitLeg (params.order params.entryAction params.entryDuration) params.entryDuration
    params.entryLimitPrice

/-- The exit at the target. -/
def targetLeg (exitAction : TradeAction) : Leg :=
  limitLeg (params.order exitAction params.resolvedExitDuration) params.resolvedExitDuration
    params.targetPrice

/-- The exit at the stop. -/
def stopLeg (exitAction : TradeAction) : Leg :=
  stopMarketLeg (params.order exitAction params.resolvedExitDuration) params.resolvedExitDuration
    params.stopPrice

/-- A bracket that is built: it opens a position, its amounts are positive, its texts are not blank, and
no leg needs an expiration. -/
structure Accepted : Prop where
  opens : ∃ exitAction, protectiveExitAction params.entryAction = .ok exitAction
  entryUndated : params.entryDuration ≠ .gtd ∧ params.entryDuration ≠ .gtdPlus
  exitUndated : params.resolvedExitDuration ≠ .gtd ∧ params.resolvedExitDuration ≠ .gtdPlus
  accountId : strip params.accountId ≠ []
  symbol : strip params.symbol ≠ []
  quantity : params.quantity.nonpos = false
  entryLimitPrice : params.entryLimitPrice.nonpos = false
  targetPrice : params.targetPrice.nonpos = false
  stopPrice : params.stopPrice.nonpos = false

variable {params}

theorem Accepted.legs (h : params.Accepted) (exitAction : TradeAction) :
    params.entryLeg.Accepted ∧ (params.targetLeg exitAction).Accepted ∧
      (params.stopLeg exitAction).Accepted := by
  have hentry : (params.order params.entryAction params.entryDuration).Accepted params.entryDuration :=
    ⟨h.entryUndated, h.accountId, h.symbol, h.quantity⟩
  have hexit : (params.order exitAction params.resolvedExitDuration).Accepted
      params.resolvedExitDuration :=
    ⟨h.exitUndated, h.accountId, h.symbol, h.quantity⟩
  exact ⟨limitLeg_accepted.2 ⟨hentry, h.entryLimitPrice⟩, limitLeg_accepted.2 ⟨hexit, h.targetPrice⟩,
    stopMarketLeg_accepted.2 ⟨hexit, h.stopPrice⟩⟩

theorem Accepted.of_legs {exitAction : TradeAction}
    (hexit : protectiveExitAction params.entryAction = .ok exitAction)
    (hentry : params.entryLeg.Accepted) (htarget : (params.targetLeg exitAction).Accepted)
    (hstop : (params.stopLeg exitAction).Accepted) : params.Accepted := by
  obtain ⟨hparams, hentryPrice⟩ := limitLeg_accepted.1 hentry
  obtain ⟨hexits, htargetPrice⟩ := limitLeg_accepted.1 htarget
  obtain ⟨-, hstopPrice⟩ := stopMarketLeg_accepted.1 hstop
  exact ⟨⟨exitAction, hexit⟩, hparams.undated, hexits.undated, hparams.accountId, hparams.symbol,
    hparams.quantity, hentryPrice, htargetPrice, hstopPrice⟩

/-- A group is the bracket, with these `UUID`s. -/
structure IsBuilt (uuid4 : ℕ → PyStr) (params : BracketParams) (group : GroupOrderRequest)
    (exitAction : TradeAction) : Prop where
  exit : protectiveExitAction params.entryAction = .ok exitAction
  type : group.type = .bracket
  entry : params.entryLeg.Accepted
  target : (params.targetLeg exitAction).Accepted
  stop : (params.stopLeg exitAction).Accepted
  orders : group.orders = [.mk (params.entryLeg.fields (uuid4 0) entry) [],
    .mk ((params.targetLeg exitAction).fields (uuid4 1) target) [],
    .mk ((params.stopLeg exitAction).fields (uuid4 2) stop) []]

/-- **What is built** of single values is the bracket. -/
theorem bracketOrderGroup_ok {uuid4 : ℕ → PyStr} {group : GroupOrderRequest}
    (h : bracketOrderGroup uuid4 params = .ok group) :
    params.Accepted ∧ ∃ exitAction, IsBuilt uuid4 params group exitAction := by
  unfold bracketOrderGroup at h
  obtain ⟨exitAction, hexit, h⟩ := except_bind_ok.1 h
  obtain ⟨parent, hparent, h⟩ := except_bind_ok.1 h
  obtain ⟨target, htarget, h⟩ := except_bind_ok.1 h
  obtain ⟨stop, hstop, h⟩ := except_bind_ok.1 h
  obtain ⟨hentryLeg, rfl⟩ := orderRequest_ok.1 hparent
  obtain ⟨htargetLeg, rfl⟩ := orderRequest_ok.1 htarget
  obtain ⟨hstopLeg, rfl⟩ := orderRequest_ok.1 hstop
  obtain ⟨htype, horders⟩ := groupOrderRequest_ok h
  exact ⟨.of_legs hexit hentryLeg htargetLeg hstopLeg, exitAction, hexit, htype, hentryLeg, htargetLeg,
    hstopLeg, horders⟩

/-- **When a bracket is built.** -/
theorem bracketOrderGroup_ok_iff (uuid4 : ℕ → PyStr) :
    (∃ group, bracketOrderGroup uuid4 params = .ok group) ↔ params.Accepted := by
  refine ⟨fun ⟨group, h⟩ => (bracketOrderGroup_ok h).1, fun h => ?_⟩
  obtain ⟨exitAction, hexit⟩ := h.opens
  obtain ⟨hentry, htarget, hstop⟩ := h.legs exitAction
  unfold bracketOrderGroup groupOrderRequest
  refine ⟨_, except_bind_ok.2 ⟨_, hexit, except_bind_ok.2 ⟨_, orderRequest_ok.2 ⟨hentry, rfl⟩,
    except_bind_ok.2 ⟨_, orderRequest_ok.2 ⟨htarget, rfl⟩,
      except_bind_ok.2 ⟨_, orderRequest_ok.2 ⟨hstop, rfl⟩, dif_pos ⟨⟨by simp, by simp, by simp⟩, ?_, ?_⟩⟩⟩⟩⟩⟩
  · simp [OrderRequest.fields, Leg.fields, order]
  · simp [OrderRequest.fields, Leg.fields, order]

end BracketParams

/-! ## On the wire -/

/-- An order is the leg, as numbers and texts. -/
structure OrderRequest.Fits (order : OrderRequest) (leg : Leg) : Prop where
  osos : order.osos = []
  accountId : order.fields.accountId = strip leg.accountId
  symbol : order.fields.symbol = strip leg.symbol
  quantity : SameNumber leg.quantity order.fields.quantity
  orderType : order.fields.orderType = leg.orderType
  action : order.fields.tradeAction = leg.action
  duration : order.fields.timeInForce.duration = leg.duration
  expiration : order.fields.timeInForce.expiration = none
  limitPrice : Option.Rel SameNumber leg.limitPrice order.fields.limitPrice
  stopPrice : Option.Rel SameNumber leg.stopPrice order.fields.stopPrice
  route : order.fields.route = leg.route
  advancedOptions : order.fields.advancedOptions = none

theorem rel_none_left {α : Type} {R : α → α → Prop} {b : Option α} (h : Option.Rel R none b) :
    b = none := by
  cases h
  rfl

/-- **What is the same on the wire as a leg** is that leg. -/
theorem fits_of_wireRel {leg : Leg} {requestId : PyStr} {h : leg.Accepted} {order : OrderRequest}
    (hrel : OrderRequest.WireRel SameNumber SameInstant (.mk (leg.fields requestId h) []) order) :
    order.Fits leg := by
  rcases order with ⟨fields, osos⟩
  rw [OrderRequest.WireRel] at hrel
  obtain ⟨hfields, hosos⟩ := hrel
  cases osos with
  | nil =>
    exact ⟨rfl, hfields.accountId.symm, hfields.symbol.symm, hfields.quantity, hfields.orderType.symm,
      hfields.tradeAction.symm, hfields.timeInForce.duration.symm,
      rel_none_left hfields.timeInForce.expiration, hfields.limitPrice, hfields.stopPrice,
      hfields.route.symm, rel_none_left hfields.advancedOptions⟩
  | cons oso osos => simp [OrderRequest.WireRels] at hosos

/-- The action adds to the position. -/
def TradeAction.adds : TradeAction → Bool
  | .buy | .buyToCover | .buyToOpen | .buyToClose => true
  | .sell | .sellShort | .sellToOpen | .sellToClose => false

/-- What the position changes by when the order is filled. -/
def OrderRequest.fill (order : OrderRequest) : ℚ :=
  if order.fields.tradeAction.adds then order.fields.quantity.toRat else -order.fields.quantity.toRat

theorem adds_protectiveExitAction {entryAction exitAction : TradeAction}
    (h : protectiveExitAction entryAction = .ok exitAction) : exitAction.adds = !entryAction.adds := by
  cases entryAction <;> cases h <;> rfl

/-- An exit undoes its entry. -/
theorem fill_add_fill {entry exit : OrderRequest} {entryLeg exitLeg : Leg} (hentry : entry.Fits entryLeg)
    (hexit : exit.Fits exitLeg) (hquantity : exitLeg.quantity = entryLeg.quantity)
    (haction : protectiveExitAction entryLeg.action = .ok exitLeg.action) :
    entry.fill + exit.fill = 0 := by
  have hsame : exit.fields.quantity.toRat = entry.fields.quantity.toRat := by
    rw [← hentry.quantity, ← hexit.quantity, hquantity]
  have hadds := adds_protectiveExitAction haction
  rw [OrderRequest.fill, OrderRequest.fill, hentry.action, hexit.action, hadds, hsame]
  cases entryLeg.action.adds <;> simp

/-! ## Pairs of exits -/

theorem sameNumber_refl (value : Option Decimal) : Option.Rel SameNumber value value := by
  cases value with
  | none => exact .none
  | some d => exact .some rfl

/-- What is built of a leg fits it. -/
theorem Leg.fits (leg : Leg) (requestId : PyStr) (h : leg.Accepted) :
    (OrderRequest.mk (leg.fields requestId h) []).Fits leg where
  osos := rfl
  accountId := rfl
  symbol := rfl
  quantity := rfl
  orderType := rfl
  action := rfl
  duration := rfl
  expiration := rfl
  limitPrice := sameNumber_refl leg.limitPrice
  stopPrice := sameNumber_refl leg.stopPrice
  route := rfl
  advancedOptions := rfl

/-- **An exit group is two ways out of one position**: a target and a stop, and whichever is filled, the
position changes by the same. -/
theorem ocoExitGroup_ok {uuid4 : ℕ → PyStr} {params : OrderParams} {targetPrice stopPrice : Decimal}
    {group : GroupOrderRequest} (h : ocoExitGroup uuid4 params targetPrice stopPrice = .ok group) :
    ∃ target stop, group.type = .oco ∧ group.orders = [target, stop] ∧
      target.Fits (limitLeg params (params.duration.getD .gtc) targetPrice) ∧
      stop.Fits (stopMarketLeg params (params.duration.getD .gtc) stopPrice) ∧
      target.fill = stop.fill := by
  unfold ocoExitGroup at h
  obtain ⟨target, htarget, h⟩ := except_bind_ok.1 h
  obtain ⟨stop, hstop, h⟩ := except_bind_ok.1 h
  obtain ⟨htargetLeg, rfl⟩ := orderRequest_ok.1 htarget
  obtain ⟨hstopLeg, rfl⟩ := orderRequest_ok.1 hstop
  obtain ⟨htype, horders⟩ := groupOrderRequest_ok h
  exact ⟨_, _, htype, horders, Leg.fits _ _ htargetLeg, Leg.fits _ _ hstopLeg, rfl⟩

/-! ## Brackets on the wire -/

/-- **A group is the bracket**: an entry and two exits on the terms that were given, and either exit
leaves the position as it was before the entry. -/
structure GroupOrderRequest.IsBracket (group : GroupOrderRequest) (params : BracketParams)
    (exitAction : TradeAction) (entry target stop : OrderRequest) : Prop where
  exit : protectiveExitAction params.entryAction = .ok exitAction
  type : group.type = .bracket
  orders : group.orders = [entry, target, stop]
  entryLeg : entry.Fits params.entryLeg
  targetLeg : target.Fits (params.targetLeg exitAction)
  stopLeg : stop.Fits (params.stopLeg exitAction)
  target_flat : entry.fill + target.fill = 0
  stop_flat : entry.fill + stop.fill = 0

/-- A bracket is one on the wire as well. -/
theorem BracketParams.IsBuilt.arrives {uuid4 : ℕ → PyStr} {params : BracketParams}
    {group arrived : GroupOrderRequest} {exitAction : TradeAction}
    (h : params.IsBuilt uuid4 group exitAction) (hrel : GroupOrderRequest.WireRel group arrived) :
    ∃ entry target stop, arrived.IsBracket params exitAction entry target stop := by
  have hrels := hrel.orders
  rw [h.orders] at hrels
  rcases horders : arrived.orders with _ | ⟨entry, _ | ⟨target, _ | ⟨stop, _ | ⟨more, rest⟩⟩⟩⟩ <;>
    rw [horders] at hrels <;> simp only [OrderRequest.WireRels, and_true, and_false] at hrels
  obtain ⟨hentry, htarget, hstop⟩ := hrels
  have hentry := fits_of_wireRel hentry
  have htarget := fits_of_wireRel htarget
  have hstop := fits_of_wireRel hstop
  exact ⟨entry, target, stop, h.exit, hrel.type.symm.trans h.type, horders, hentry, htarget, hstop,
    fill_add_fill hentry htarget rfl h.exit, fill_add_fill hentry hstop rfl h.exit⟩

/-- The texts of the bracket can be written. -/
structure BracketParams.Written (params : BracketParams) : Prop where
  accountId : Json.Written (strip params.accountId)
  symbol : Json.Written (strip params.symbol)
  route : ∀ route ∈ params.route, Json.Written route

theorem Leg.written_fields {leg : Leg} {requestId : PyStr} {h : leg.Accepted} (lib : Library)
    (haccountId : Json.Written (strip leg.accountId)) (hsymbol : Json.Written (strip leg.symbol))
    (hroute : ∀ route ∈ leg.route, Json.Written route) :
    OrderRequest.Written lib (.mk (leg.fields requestId h) []) :=
  .mk ⟨haccountId, hsymbol, by simp [Leg.fields], hroute, by simp [Leg.fields], by simp [Leg.fields]⟩
    (by simp)

theorem BracketParams.IsBuilt.written {uuid4 : ℕ → PyStr} {params : BracketParams}
    {group : GroupOrderRequest} {exitAction : TradeAction} (h : params.IsBuilt uuid4 group exitAction)
    (hwritten : params.Written) (lib : Library) : ∀ order ∈ group.orders, order.Written lib := by
  rw [h.orders]
  intro order horder
  simp only [List.mem_cons, List.not_mem_nil, or_false] at horder
  rcases horder with rfl | rfl | rfl <;>
    exact Leg.written_fields lib hwritten.accountId hwritten.symbol hwritten.route

theorem BracketParams.IsBuilt.representable {uuid4 : ℕ → PyStr} {params : BracketParams}
    {group : GroupOrderRequest} {exitAction : TradeAction} (h : params.IsBuilt uuid4 group exitAction) :
    ∀ node ∈ OrderRequest.nodesOf group.orders, node.Representable := by
  rw [h.orders]
  intro node hnode
  simp only [OrderRequest.nodesOf, OrderRequest.nodes, List.mem_append, List.mem_cons,
    List.not_mem_nil, or_false] at hnode
  rcases hnode with rfl | rfl | rfl <;>
    exact OrderFields.representable_of_none rfl rfl

/-- A bracket has neither expirations nor rules, so it makes no difference how these are dumped. -/
theorem BracketParams.IsBuilt.payload_eq {uuid4 : ℕ → PyStr} {params : BracketParams}
    {group : GroupOrderRequest} {exitAction : TradeAction} (h : params.IsBuilt uuid4 group exitAction)
    (lib lib' : Library) : groupOrderPayload lib group = groupOrderPayload lib' group := by
  rw [groupOrderPayload, groupOrderPayload, h.orders]
  rfl

/-- **A bracket that is placed arrives as one.** A bracket is built exactly if its values are accepted.
Every write that placing it sends has a body that reads as a group of an entry and two exits on the terms
that were given, and either exit leaves the position as it was before the entry. -/
theorem bracket_arrives {client : TradeStationClient} {floatRepr : Python.PyFloat → List Char}
    (hlib : client.lib.WritesWire floatRepr) {py : Pydantic} (hpy : py.Reads) (uuid4 : List ℕ → PyStr)
    (fresh : PyStr) (drawn : ℕ → PyStr) {params : BracketParams} (hwritten : params.Written) :
    ((∃ group, bracketOrderGroup drawn params = .ok group) ↔ params.Accepted) ∧
      ∀ group, bracketOrderGroup drawn params = .ok group → ∀ tr r,
        Coro.Runs (client.placeOrderGroup group) tr r → ∀ request answer,
          ⟨.send request, answer⟩ ∈ tr → request.method ≠ str "GET" →
            ∃ body payload arrived exitAction entry target stop,
              (urllibRequest client.lib request).data = some body ∧
              received body = some (.obj payload) ∧
              py.groupOrder uuid4 fresh (.obj payload) = some arrived ∧
              arrived.IsBracket params exitAction entry target stop := by
  refine ⟨BracketParams.bracketOrderGroup_ok_iff drawn, ?_⟩
  intro group hgroup tr r hrun request answer hsent hwrite
  obtain ⟨-, exitAction, hbuilt⟩ := BracketParams.bracketOrderGroup_ok hgroup
  have hsubmit : Coro.Runs (client.submit (.group group)) tr r := hrun
  obtain ⟨asked, payload, call, token, hasks, rfl, hpayload, -⟩ := submit_asks hsubmit hsent hwrite
  cases hasks
  obtain ⟨arrived, hreads, hrel⟩ := group_reads hpy isoLibrary_writes uuid4 fresh group
    hbuilt.representable
  rw [hbuilt.payload_eq isoLibrary client.lib] at hreads
  obtain ⟨entry, target, stop, hbracket⟩ := hbuilt.arrives hrel
  have hreceived := received_dumps hlib
    (isTree_groupOrderPayload (hbuilt.written hwritten client.lib))
  refine ⟨_, _, arrived, exitAction, entry, target, stop, ?_, hreceived, hreads, hbracket⟩
  simp [urllibRequest, RestClient.request, hpayload]

/-- Two shares that are bought, with an exit above and one below. -/
def sharesBracket : BracketParams where
  accountId := str "SIM1"
  symbol := str "MSFT"
  quantity := .ofNat 2
  entryAction := .buy
  entryLimitPrice := .ofNat 10
  targetPrice := .ofNat 12
  stopPrice := .ofNat 9

theorem bracket_arrives_shares :
    ((∃ group, bracketOrderGroup (fun _ => str "u") sharesBracket = .ok group) ↔
        sharesBracket.Accepted) ∧
      ∀ group, bracketOrderGroup (fun _ => str "u") sharesBracket = .ok group → ∀ tr r,
        Coro.Runs (wireClient.placeOrderGroup group) tr r → ∀ request answer,
          ⟨.send request, answer⟩ ∈ tr → request.method ≠ str "GET" →
            ∃ body payload arrived exitAction entry target stop,
              (urllibRequest wireLib request).data = some body ∧
              received body = some (.obj payload) ∧
              plainPydantic.groupOrder (fun _ => str "u") (str "v") (.obj payload) = some arrived ∧
              arrived.IsBracket sharesBracket exitAction entry target stop := by
  have hlib : wireClient.lib.WritesWire fun _ => [] := fun _ => rfl
  have haccount : strip sharesBracket.accountId = str "SIM1" := by decide
  have hsymbol : strip sharesBracket.symbol = str "MSFT" := by decide
  refine bracket_arrives hlib plainPydantic_reads _ _ _ ⟨?_, ?_, by simp [sharesBracket]⟩
  · rw [haccount]
    exact written_of_ascii (by decide)
  · rw [hsymbol]
    exact written_of_ascii (by decide)

end TradeStation
