import TradeStation.Models.Snapshots

/-!
# Reconciliation

`match_unknown_order`: which of the broker's records may be the order whose answer was lost. The
matcher compares the wrapper's vocabulary with the broker's, and the broker has four words for the
eight trade actions: an option order that opens or closes a position is a plain `Buy` or `Sell` of
its leg, and the rest is said in `OpenOrClose`.

* `matches_record_iff`: a record of the order itself is matched exactly if the order's action is one
  of the four that have a word of their own.
* `matchUnknownOrder_record_iff`: so exactly then it is among the matches, whatever else there is.
-/

namespace TradeStation

open Python

/-- `_TRADE_ACTION_BY_BROKER_NAME`. -/
def tradeActionByBrokerName : List (PyStr × TradeAction) :=
  [(str "BUY", .buy), (str "SELL", .sell), (str "BUYTOCOVER", .buyToCover),
    (str "SELLSHORT", .sellShort), (str "BUYTOOPEN", .buyToOpen), (str "BUYTOCLOSE", .buyToClose),
    (str "SELLTOOPEN", .sellToOpen), (str "SELLTOCLOSE", .sellToClose)]

/-- `_normalize_broker_action`. -/
def normalizeBrokerAction (value : Option PyStr) : Option TradeAction :=
  value.bind fun value =>
    let normalized := upper (without (without value 0x20) 0x5f)
    (tradeActionByBrokerName.find? fun p => p.1 = normalized).map Prod.snd

/-- `_decimal_equal`. -/
def decimalEqual : Option Decimal → Option Decimal → Bool
  | some left, some right => left.eq right
  | none, none => true
  | _, _ => false

/-- `_matches_fingerprint`; the time window is in microseconds. -/
def matchesFingerprint (fingerprint : UnknownOrderFingerprint) (snapshot : OrderSnapshot)
    (timeWindow : ℤ) : Bool :=
  (match snapshot.accountId with
    | some accountId => accountId = fingerprint.accountId
    | none => true) &&
  decide (snapshot.primarySymbol = some fingerprint.symbol) &&
  decide (normalizeBrokerAction snapshot.primaryAction = some fingerprint.tradeAction) &&
  decide (snapshot.orderType = some fingerprint.orderType) &&
  (match snapshot.primaryQuantity with
    | some quantity => quantity.eq fingerprint.quantity
    | none => false) &&
  decimalEqual snapshot.limitPrice fingerprint.limitPrice &&
  decimalEqual snapshot.stopPrice fingerprint.stopPrice &&
  (match snapshot.openedAt with
    | some openedAt => openedAt.aware && decide (|openedAt.sub fingerprint.submittedAt| ≤ timeWindow)
    | none => false)

/-- `ReconciliationOutcome`. -/
inductive ReconciliationOutcome
  | exactMatch
  | noMatch
  | multipleMatches
  deriving DecidableEq

/-- `ReconciliationResult`. -/
structure ReconciliationResult where
  outcome : ReconciliationOutcome
  matched : List OrderSnapshot

/-- `match_unknown_order`. -/
def matchUnknownOrder (fingerprint : UnknownOrderFingerprint) (snapshots : List OrderSnapshot)
    (timeWindow : ℤ := 300000000) : ReconciliationResult :=
  let matched := snapshots.filter fun snapshot =>
    matchesFingerprint fingerprint snapshot timeWindow
  if matched.length = 1 then ⟨.exactMatch, matched⟩
  else if 1 < matched.length then ⟨.multipleMatches, matched⟩
  else ⟨.noMatch, []⟩

/-! ## The broker's record of an order -/

/-- `BuyOrSell` in the broker's record of an order. -/
def brokerWord : TradeAction → PyStr
  | .buy | .buyToOpen | .buyToClose => str "Buy"
  | .sell | .sellToOpen | .sellToClose => str "Sell"
  | .sellShort => str "SellShort"
  | .buyToCover => str "BuyToCover"

/-- An option action, whose record says in `OpenOrClose` whether it opens or closes. -/
def opensOrCloses : TradeAction → Bool
  | .buyToOpen | .buyToClose | .sellToOpen | .sellToClose => true
  | _ => false

/-- `None` on both sides, or two numbers of one value. -/
def SameValue : Option Decimal → Option Decimal → Prop
  | some left, some right => left.toRat = right.toRat
  | none, none => True
  | _, _ => False

/-- The broker's record of a single-leg order, as its schema encodes it. -/
structure BrokerRecord (fingerprint : UnknownOrderFingerprint) (timeWindow : ℤ)
    (snapshot : OrderSnapshot) : Prop where
  account : snapshot.accountId = some fingerprint.accountId
  symbol : snapshot.symbol = none ∨ snapshot.symbol = some fingerprint.symbol
  orderType : snapshot.orderType = some fingerprint.orderType
  limitPrice : SameValue snapshot.limitPrice fingerprint.limitPrice
  stopPrice : SameValue snapshot.stopPrice fingerprint.stopPrice
  opened : ∃ openedAt, snapshot.openedAt = some openedAt ∧ openedAt.aware = true ∧
    |openedAt.sub fingerprint.submittedAt| ≤ timeWindow
  leg : ∃ leg quantity, snapshot.legs = [leg] ∧ leg.symbol = some fingerprint.symbol ∧
    leg.quantityOrdered = some quantity ∧ quantity.toRat = fingerprint.quantity.toRat ∧
    leg.buyOrSell = some (brokerWord fingerprint.tradeAction) ∧
    ∃ word, Json.get leg.extra (str "OpenOrClose") = some (.str word)

theorem decimalEqual_iff {left right : Option Decimal} :
    decimalEqual left right = true ↔ SameValue left right := by
  cases left <;> cases right <;> simp [decimalEqual, SameValue, Decimal.eq]

/-- The broker's words are understood as the actions of the same name. -/
theorem normalizeBrokerAction_brokerWord (action : TradeAction) :
    normalizeBrokerAction (some (brokerWord action)) = some action ↔
      opensOrCloses action = false := by
  cases action <;> decide

theorem primarySymbol_record {fingerprint : UnknownOrderFingerprint} {timeWindow : ℤ}
    {snapshot : OrderSnapshot} (h : BrokerRecord fingerprint timeWindow snapshot) :
    snapshot.primarySymbol = some fingerprint.symbol := by
  obtain ⟨leg, -, hlegs, hleg, -⟩ := h.leg
  unfold OrderSnapshot.primarySymbol
  rw [hlegs]
  rcases h.symbol with hnone | hsome
  · rw [hnone]
    exact hleg
  · rw [hsome]
    -- an empty symbol is passed over, and then the leg's is empty too
    cases hempty : fingerprint.symbol with
    | nil => exact hleg.trans (congrArg some hempty)
    | cons => rfl

/-- All but the action of a record agrees with the fingerprint. -/
theorem matches_record_iff {fingerprint : UnknownOrderFingerprint} {timeWindow : ℤ}
    {snapshot : OrderSnapshot} (h : BrokerRecord fingerprint timeWindow snapshot) :
    matchesFingerprint fingerprint snapshot timeWindow = true ↔
      opensOrCloses fingerprint.tradeAction = false := by
  have hsymbol := primarySymbol_record h
  have hlimit := decimalEqual_iff.2 h.limitPrice
  have hstop := decimalEqual_iff.2 h.stopPrice
  obtain ⟨openedAt, hopened, haware, hwindow⟩ := h.opened
  obtain ⟨leg, quantity, hlegs, -, hquantity, hvalue, haction, -⟩ := h.leg
  have hprimary : snapshot.primaryQuantity = some quantity := by
    simp [OrderSnapshot.primaryQuantity, hlegs, hquantity]
  have hword : snapshot.primaryAction = some (brokerWord fingerprint.tradeAction) := by
    simp [OrderSnapshot.primaryAction, hlegs, haction]
  rw [← normalizeBrokerAction_brokerWord]
  simp [matchesFingerprint, h.account, hsymbol, hword, h.orderType, hprimary, Decimal.eq, hvalue,
    hlimit, hstop, hopened, haware, hwindow]

theorem mem_matchUnknownOrder {fingerprint : UnknownOrderFingerprint} {timeWindow : ℤ}
    {snapshots : List OrderSnapshot} {snapshot : OrderSnapshot} (h : snapshot ∈ snapshots) :
    ((matchUnknownOrder fingerprint snapshots timeWindow).outcome ≠ .noMatch ∧
        snapshot ∈ (matchUnknownOrder fingerprint snapshots timeWindow).matched) ↔
      matchesFingerprint fingerprint snapshot timeWindow = true := by
  have hmem : snapshot ∈ snapshots.filter (matchesFingerprint fingerprint · timeWindow) ↔
      matchesFingerprint fingerprint snapshot timeWindow = true := by
    simp [h]
  unfold matchUnknownOrder
  simp only
  split_ifs with hone hmany
  · simpa using hmem
  · simpa using hmem
  · -- nothing matched
    have hnil : snapshots.filter (matchesFingerprint fingerprint · timeWindow) = [] :=
      List.length_eq_zero_iff.1 (by omega)
    rw [hnil] at hmem
    simpa using hmem

/-- **Reconciliation finds the broker's record of an order** among any snapshots, exactly if the
order's action does not open or close an option position. -/
theorem matchUnknownOrder_record_iff (fingerprint : UnknownOrderFingerprint) (timeWindow : ℤ)
    (snapshots : List OrderSnapshot) (record : OrderSnapshot)
    (hrecord : BrokerRecord fingerprint timeWindow record) (hmem : record ∈ snapshots) :
    ((matchUnknownOrder fingerprint snapshots timeWindow).outcome ≠ .noMatch ∧
        record ∈ (matchUnknownOrder fingerprint snapshots timeWindow).matched) ↔
      opensOrCloses fingerprint.tradeAction = false :=
  (mem_matchUnknownOrder hmem).trans (matches_record_iff hrecord)

/-- A fingerprint of a market order for two. -/
def marketFingerprint (tradeAction : TradeAction) : UnknownOrderFingerprint where
  accountId := str "SIM1"
  symbol := str "MSFT 260619C350"
  tradeAction
  orderType := .market
  quantity := .ofNat 2
  submittedAt := ⟨0, some (some 0)⟩
  payloadHash := []
  submittedAt_aware := rfl

/-- The broker's record of that order. -/
def marketRecord (tradeAction : TradeAction) : OrderSnapshot where
  accountId := some (str "SIM1")
  orderId := str "1"
  orderType := some .market
  openedAt := some ⟨60000000, some (some 0)⟩
  legs := [
    { symbol := some (str "MSFT 260619C350"), buyOrSell := some (brokerWord tradeAction),
      quantityOrdered := some (.ofNat 2), extra := [(str "OpenOrClose", .str (str "Open"))] }]

theorem brokerRecord_market (tradeAction : TradeAction) :
    BrokerRecord (marketFingerprint tradeAction) 300000000 (marketRecord tradeAction) where
  account := rfl
  symbol := .inl rfl
  orderType := rfl
  limitPrice := trivial
  stopPrice := trivial
  opened := by
    refine ⟨⟨60000000, some (some 0)⟩, rfl, rfl, ?_⟩
    change |(60000000 : ℤ) - 0 - (0 - 0)| ≤ 300000000
    decide
  leg := ⟨_, .ofNat 2, rfl, rfl, rfl, rfl, rfl, str "Open", rfl⟩

/-- The record of a bought stock is found, next to one of another order. -/
theorem matchUnknownOrder_record_iff_buy :
    ((matchUnknownOrder (marketFingerprint .buy) [marketRecord .sell, marketRecord .buy]
          300000000).outcome ≠ .noMatch ∧
        marketRecord .buy ∈ (matchUnknownOrder (marketFingerprint .buy)
          [marketRecord .sell, marketRecord .buy] 300000000).matched) ↔
      opensOrCloses .buy = false :=
  matchUnknownOrder_record_iff (marketFingerprint .buy) 300000000
    [marketRecord .sell, marketRecord .buy] (marketRecord .buy) (brokerRecord_market .buy)
    (by simp)

/-- The record of an option that was bought to open is not found. -/
theorem buyToOpen_not_matched :
    BrokerRecord (marketFingerprint .buyToOpen) 300000000 (marketRecord .buyToOpen) ∧
      (matchUnknownOrder (marketFingerprint .buyToOpen) [marketRecord .buyToOpen]
        300000000).outcome = .noMatch ∧
      marketRecord .buyToOpen ∉ (matchUnknownOrder (marketFingerprint .buyToOpen)
        [marketRecord .buyToOpen] 300000000).matched := by
  have hno : matchesFingerprint (marketFingerprint .buyToOpen) (marketRecord .buyToOpen)
      300000000 = false := by
    have hiff := matches_record_iff (brokerRecord_market .buyToOpen)
    simpa [marketFingerprint, opensOrCloses] using hiff
  have hresult : matchUnknownOrder (marketFingerprint .buyToOpen) [marketRecord .buyToOpen]
      300000000 = ⟨.noMatch, []⟩ := by
    simp [matchUnknownOrder, hno]
  rw [hresult]
  exact ⟨brokerRecord_market .buyToOpen, rfl, by simp⟩

end TradeStation
