import TradeStation.Submissions

/-!
# Orders as replacements

`replace_order` still takes an `OrderRequest` for a replacement, and makes an `OrderReplaceRequest`
of it. Of the ten advanced options four can be replaced.

* `coerceReplaceAdvancedOptions_some`: the options come through exactly if there is one of the four
  among them, and then as they stand.
* `coerceReplaceRequest_faithful_iff`: the orders that are replaced by what they say.
-/

namespace TradeStation

open Python

/-! ## What a replacement takes over -/

/-- One of the four options that can be replaced is there. -/
def AdvancedOptions.Replaceable (options : AdvancedOptions) : Prop :=
  options.marketActivationRules ≠ [] ∨ options.showOnlyQuantity ≠ none ∨
    options.timeActivationRules ≠ [] ∨ options.trailingStop ≠ none

/-- The rules are handed on as `Rules`, and not at all where there are none. -/
def CarriesRules (rules : List Json.Dict) (replaced : Option ActivationRulesReplace) : Prop :=
  replaced.map (fun r => (r.clearAll, r.rules)) = if rules = [] then none else some (none, rules)

/-- The four options as they stand. -/
structure CarriesOptions (options : AdvancedOptions) (replaced : AdvancedOptionsReplace) : Prop where
  marketActivationRules :
    CarriesRules options.marketActivationRules replaced.marketActivationRules
  showOnlyQuantity : replaced.showOnlyQuantity = options.showOnlyQuantity
  timeActivationRules : CarriesRules options.timeActivationRules replaced.timeActivationRules
  trailingStop : replaced.trailingStop = options.trailingStop

/-- The replaceable options are carried; where there are none, nothing is. -/
def CarriesReplaceable : Option AdvancedOptions → Option AdvancedOptionsReplace → Prop
  | none, replaced => replaced = none
  | some options, none => ¬options.Replaceable
  | some options, some replaced => options.Replaceable ∧ CarriesOptions options replaced

/-- The replacement says of the order what a replacement can say. -/
structure ReplacesBy (order : OrderFields) (replacement : OrderReplaceRequest) : Prop where
  quantity : replacement.quantity = some order.quantity
  limitPrice : replacement.limitPrice = order.limitPrice
  stopPrice : replacement.stopPrice = order.stopPrice
  orderType : replacement.orderType = if order.orderType = .market then some .market else none
  advancedOptions : CarriesReplaceable order.advancedOptions replacement.advancedOptions

/-! ## The parts -/

/-- Rules always come through. -/
theorem coerceActivationRules_total (rules : List Json.Dict) :
    ∃ replaced, coerceActivationRules rules = some replaced ∧ CarriesRules rules replaced ∧
      (replaced.isSome ↔ rules ≠ []) := by
  cases rules with
  | nil => exact ⟨none, rfl, rfl, by simp⟩
  | cons rule rules => exact ⟨_, rfl, rfl, by simp⟩

/-- **The advanced options** come through exactly if one of them can be replaced, and as they
stand. -/
theorem coerceReplaceAdvancedOptions_some (options : AdvancedOptions) :
    (options.Replaceable → ∃ replaced,
      coerceReplaceAdvancedOptions (some options) = some (some replaced) ∧
        CarriesOptions options replaced) ∧
    (¬options.Replaceable → coerceReplaceAdvancedOptions (some options) = none) := by
  obtain ⟨market, hmarket, hmarketRules, hmarketSome⟩ :=
    coerceActivationRules_total options.marketActivationRules
  obtain ⟨time, htime, htimeRules, htimeSome⟩ :=
    coerceActivationRules_total options.timeActivationRules
  -- the options that the validator asks for are there exactly if the order has one to replace
  have hsome : market.isSome ∨ options.showOnlyQuantity.isSome ∨ time.isSome ∨
      options.trailingStop.isSome ↔ options.Replaceable := by
    rw [hmarketSome, htimeSome, Option.isSome_iff_ne_none, Option.isSome_iff_ne_none]
    exact Iff.rfl
  have hcoerced : coerceReplaceAdvancedOptions (some options) =
      (AdvancedOptionsReplace.validate market options.showOnlyQuantity time
        options.trailingStop).map some := by
    simp only [coerceReplaceAdvancedOptions, hmarket, htime, Option.bind_eq_bind,
      Option.bind_some, Option.map_eq_bind]
    rfl
  constructor
  · intro h
    rw [hcoerced, AdvancedOptionsReplace.validate,
      dif_pos ⟨options.showOnlyQuantity_pos, hsome.2 h⟩]
    exact ⟨_, rfl, hmarketRules, rfl, htimeRules, rfl⟩
  · intro h
    rw [hcoerced, AdvancedOptionsReplace.validate, dif_neg fun hvalid => h (hsome.1 hvalid.2)]
    rfl

/-- With the advanced options out of the way, nothing can go wrong: the order has a quantity. -/
theorem orderReplaceRequest_validate (order : OrderFields)
    (advancedOptions : Option AdvancedOptionsReplace) :
    ∃ replacement, OrderReplaceRequest.validate advancedOptions order.limitPrice
        (if order.orderType = .market then some .market else none) (some order.quantity)
        order.stopPrice = some replacement ∧
      replacement.quantity = some order.quantity ∧ replacement.limitPrice = order.limitPrice ∧
      replacement.stopPrice = order.stopPrice ∧
      replacement.orderType = (if order.orderType = .market then some .market else none) ∧
      replacement.advancedOptions = advancedOptions := by
  have hquantity : Positive (some order.quantity) := by
    rintro _ ⟨⟩
    exact order.quantity_pos
  have hmarket : ∀ type ∈ (if order.orderType = .market then some OrderType.market else none),
      type = .market := by
    intro type htype
    split_ifs at htype with h
    · exact (Option.mem_some.1 htype).symm
    · cases htype
  rw [OrderReplaceRequest.validate,
    dif_pos ⟨⟨hquantity, order.limitPrice_pos, order.stopPrice_pos⟩,
      .inr (.inr (.inr (.inl rfl))), hmarket⟩]
  exact ⟨_, rfl, rfl, rfl, rfl, rfl, rfl⟩

/-! ## Orders -/

theorem coerceReplaceRequest_order {order : OrderRequest}
    {advancedOptions : Option AdvancedOptionsReplace}
    (hoptions : coerceReplaceAdvancedOptions order.fields.advancedOptions = some advancedOptions)
    (hcarries : CarriesReplaceable order.fields.advancedOptions advancedOptions) :
    ∃ replacement, coerceReplaceRequest (.order order) = some replacement ∧
      ReplacesBy order.fields replacement := by
  obtain ⟨replacement, hvalid, hquantity, hlimit, hstop, htype, hadvanced⟩ :=
    orderReplaceRequest_validate order.fields advancedOptions
  refine ⟨replacement, ?_, hquantity, hlimit, hstop, htype, ?_⟩
  · rw [coerceReplaceRequest, hoptions]
    exact hvalid
  · rw [hadvanced]
    exact hcarries

/-- **Orders that are replaced by what they say**: those without advanced options, and those with
one of the four. All others raise. -/
theorem coerceReplaceRequest_faithful_iff (order : OrderRequest) :
    (∃ replacement, coerceReplaceRequest (.order order) = some replacement ∧
      ReplacesBy order.fields replacement) ↔
      ∀ options ∈ order.fields.advancedOptions, options.Replaceable := by
  cases hoptions : order.fields.advancedOptions with
  | none =>
    refine iff_of_true ?_ (by simp)
    have hnone : coerceReplaceAdvancedOptions order.fields.advancedOptions = some none := by
      rw [hoptions]
      rfl
    exact coerceReplaceRequest_order hnone (by rw [hoptions]; rfl)
  | some options =>
    obtain ⟨hcarried, hraised⟩ := coerceReplaceAdvancedOptions_some options
    simp only [Option.mem_some, forall_eq']
    constructor
    · rintro ⟨replacement, hcoerced, -⟩
      by_contra hnot
      rw [coerceReplaceRequest, hoptions, hraised hnot] at hcoerced
      cases hcoerced
    · intro h
      obtain ⟨replaced, hcoerced, hcarries⟩ := hcarried h
      refine coerceReplaceRequest_order (by rw [hoptions]; exact hcoerced) ?_
      rw [hoptions]
      exact ⟨h, hcarries⟩

/-- An order whose only advanced option is `AllOrNone`. -/
def allOrNoneFields : OrderFields :=
  { buyFields with
    advancedOptions := some
      { allOrNone := some true
        discretionaryPrice_pos := positive_none
        showOnlyQuantity_pos := positive_none } }

/-- `AllOrNone` alone cannot be replaced, and the order cannot be either. -/
theorem coerceReplaceRequest_allOrNone :
    ¬∃ replacement, coerceReplaceRequest (.order (.mk allOrNoneFields [])) = some replacement ∧
      ReplacesBy allOrNoneFields replacement := by
  rintro ⟨replacement, hcoerced, -⟩
  cases hcoerced

end TradeStation
