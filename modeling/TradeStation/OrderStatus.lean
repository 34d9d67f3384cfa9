import TradeStation.Trade

/-!
# Order status and the updates of a trade

The codes in which the broker reports the status of an order, what the wrapper tells from them, and what a
trade becomes as snapshots and events come in.

* `normalizeOrderStatus_eq_some_iff`: a code is read in any case, with any blanks around it.
* `replaceable_cancelable`, `cancelable_active`, `active_not_done`: what may be replaced may be cancelled, and
  what may be cancelled is not over. `unclassified_iff` says which codes are neither active nor done.
* `TradeStationTrade.after_eq`: a trade after any updates. `reconcileRequired_after` reads off that none of
  them settles an ambiguity, and `status_after` that the last snapshot says what is to be read.
-/

namespace TradeStation

open Python

/-! ## Codes -/

/-- `TradeStationOrderStatus`. -/
inductive TradeStationOrderStatus
  | received | optionAssignment | bracketCanceled | bracketFilled | broken | canceled | change
  | conditionMet | fillCorrected | cancelSentDeprecated | dispatched | dead | queued
  | expirationCancelRequest | expired | optionExercise | filled | partialFillDone | partialFillAlive
  | tooLateToCancel | sent | osoOrder | other | urOut | sending | bigBrotherRecallRequest | rejected
  | cancelRejected | changeRequestRejected | replacePending | replaceSent | bigBrotherRecall | stopHit
  | statusMessage | suspended | tradeServerCanceled | replaced | cancelSent | unknown
  deriving DecidableEq

namespace TradeStationOrderStatus

/-- `TradeStationOrderStatus.value`. -/
def value : TradeStationOrderStatus → PyStr
  | received => str "ACK"
  | optionAssignment => str "ASS"
  | bracketCanceled => str "BRC"
  | bracketFilled => str "BRF"
  | broken => str "BRO"
  | canceled => str "CAN"
  | change => str "CHG"
  | conditionMet => str "CND"
  | fillCorrected => str "COR"
  | cancelSentDeprecated => str "CSN"
  | dispatched => str "DIS"
  | dead => str "DOA"
  | queued => str "DON"
  | expirationCancelRequest => str "ECN"
  | expired => str "EXP"
  | optionExercise => str "EXE"
  | filled => str "FLL"
  | partialFillDone => str "FLP"
  | partialFillAlive => str "FPR"
  | tooLateToCancel => str "LAT"
  | sent => str "OPN"
  | osoOrder => str "OSO"
  | other => str "OTHER"
  | urOut => str "OUT"
  | sending => str "PLA"
  | bigBrotherRecallRequest => str "REC"
  | rejected => str "REJ"
  | cancelRejected => str "RJC"
  | changeRequestRejected => str "RJR"
  | replacePending => str "RPD"
  | replaceSent => str "RSN"
  | bigBrotherRecall => str "SCN"
  | stopHit => str "STP"
  | statusMessage => str "STT"
  | suspended => str "SUS"
  | tradeServerCanceled => str "TSC"
  | replaced => str "UCH"
  | cancelSent => str "UCN"
  | unknown => str "UNKNOWN"

/-- `list(TradeStationOrderStatus)`. -/
def members : List TradeStationOrderStatus :=
  [received, optionAssignment, bracketCanceled, bracketFilled, broken, canceled, change, conditionMet,
    fillCorrected, cancelSentDeprecated, dispatched, dead, queued, expirationCancelRequest, expired,
    optionExercise, filled, partialFillDone, partialFillAlive, tooLateToCancel, sent, osoOrder, other,
    urOut, sending, bigBrotherRecallRequest, rejected, cancelRejected, changeRequestRejected,
    replacePending, replaceSent, bigBrotherRecall, stopHit, statusMessage, suspended,
    tradeServerCanceled, replaced, cancelSent, unknown]

theorem mem_members (status : TradeStationOrderStatus) : status ∈ members := by
  cases status <;> decide

end TradeStationOrderStatus

open TradeStationOrderStatus

/-- `DONE_STATUSES`. -/
def doneStatuses : List TradeStationOrderStatus :=
  [broken, bracketCanceled, bracketFilled, canceled, changeRequestRejected, dead, expired, filled,
    fillCorrected, optionAssignment, optionExercise, partialFillDone, rejected, replaced,
    bigBrotherRecall, tradeServerCanceled, urOut]

/-- `CANCEL_PENDING_STATUSES`. -/
def cancelPendingStatuses : List TradeStationOrderStatus :=
  [cancelSent, cancelSentDeprecated, expirationCancelRequest, bigBrotherRecallRequest]

/-- `REPLACE_PENDING_STATUSES`. -/
def replacePendingStatuses : List TradeStationOrderStatus := [replacePending, replaceSent]

/-- `WAITING_STATUSES`. -/
def waitingStatuses : List TradeStationOrderStatus := [received, conditionMet, queued, osoOrder]

/-- `WORKING_STATUSES`. -/
def workingStatuses : List TradeStationOrderStatus :=
  [change, dispatched, sent, partialFillAlive, tooLateToCancel, cancelRejected, sending, stopHit,
    suspended]

/-- `ACTIVE_STATUSES`. -/
def activeStatuses : List TradeStationOrderStatus :=
  waitingStatuses ++ workingStatuses ++ cancelPendingStatuses ++ replacePendingStatuses

/-- `NON_CANCELABLE_WORKING_STATUSES`. -/
def nonCancelableWorkingStatuses : List TradeStationOrderStatus := [cancelRejected, tooLateToCancel]

/-- `WORKING_STATUSES - NON_CANCELABLE_WORKING_STATUSES`. -/
def cancelableWorkingStatuses : List TradeStationOrderStatus :=
  workingStatuses.filter (· ∉ nonCancelableWorkingStatuses)

/-- `CANCELABLE_STATUSES`. -/
def cancelableStatuses : List TradeStationOrderStatus :=
  waitingStatuses ++ cancelableWorkingStatuses ++ replacePendingStatuses

/-- `REPLACEABLE_STATUSES`. -/
def replaceableStatuses : List TradeStationOrderStatus := waitingStatuses ++ cancelableWorkingStatuses

/-- `normalize_order_status`. -/
def normalizeOrderStatus (status : Option PyStr) : Option TradeStationOrderStatus :=
  match status with
  | none => none
  | some text =>
    let normalized := upper (strip text)
    if normalized = [] then none
    else some ((members.find? fun status => status.value = normalized).getD unknown)

/-- `order_status_is_done` and its kin: whether there is a status, and it is one of these. -/
def statusIn (statuses : List TradeStationOrderStatus) (status : Option TradeStationOrderStatus) : Bool :=
  status.any (· ∈ statuses)

/-- `order_status_is_done`. -/
def orderStatusIsDone : Option TradeStationOrderStatus → Bool := statusIn doneStatuses

/-- `order_status_is_active`. -/
def orderStatusIsActive : Option TradeStationOrderStatus → Bool := statusIn activeStatuses

/-- `order_status_is_working`. -/
def orderStatusIsWorking : Option TradeStationOrderStatus → Bool := statusIn workingStatuses

/-- `order_status_can_cancel`. -/
def orderStatusCanCancel : Option TradeStationOrderStatus → Bool := statusIn cancelableStatuses

/-- `order_status_can_replace`. -/
def orderStatusCanReplace : Option TradeStationOrderStatus → Bool := statusIn replaceableStatuses

theorem TradeStationOrderStatus.value_injective : Function.Injective value := by
  have hmembers : ∀ a ∈ members, ∀ b ∈ members, a.value = b.value → a = b := by decide
  intro a b h
  exact hmembers a (mem_members a) b (mem_members b) h

/-- **A code is read in any case**, and with any blanks around it. -/
theorem normalizeOrderStatus_eq_some_iff {text : PyStr} {status : TradeStationOrderStatus}
    (hknown : status ≠ unknown) :
    normalizeOrderStatus (some text) = some status ↔ upper (strip text) = status.value := by
  have hvalue : status.value ≠ [] := by cases status <;> decide
  unfold normalizeOrderStatus
  dsimp only
  constructor
  · intro h
    split_ifs at h
    cases hfind : members.find? fun status => status.value = upper (strip text) with
    | none =>
      rw [hfind] at h
      exact absurd (Option.some.inj h).symm hknown
    | some found =>
      rw [hfind] at h
      obtain rfl : found = status := Option.some.inj h
      exact (of_decide_eq_true (List.find?_some hfind :)).symm
  · intro h
    rw [h, if_neg hvalue]
    cases hfind : members.find? fun found => found.value = status.value with
    | none =>
      have hnone := List.find?_eq_none.1 hfind status (mem_members status)
      simp at hnone
    | some found =>
      have hfound : found.value = status.value := of_decide_eq_true (List.find?_some hfind :)
      rw [value_injective hfound, Option.getD_some]

/-! ## What a status allows -/

section
variable {status : Option TradeStationOrderStatus}

theorem statusIn_mono {statuses statuses' : List TradeStationOrderStatus} (h : statuses ⊆ statuses')
    (hin : statusIn statuses status = true) : statusIn statuses' status = true := by
  cases status with
  | none => cases hin
  | some status => exact decide_eq_true (h (of_decide_eq_true hin))

/-- What may be replaced may be cancelled. -/
theorem replaceable_cancelable (h : orderStatusCanReplace status = true) :
    orderStatusCanCancel status = true :=
  statusIn_mono (List.subset_append_left _ _) h

/-- What may be cancelled is active. -/
theorem cancelable_active (h : orderStatusCanCancel status = true) : orderStatusIsActive status = true :=
  statusIn_mono (by decide) h

/-- What works is active. -/
theorem working_active (h : orderStatusIsWorking status = true) : orderStatusIsActive status = true :=
  statusIn_mono (by decide) h

/-- **What is active is not done.** -/
theorem active_not_done (h : orderStatusIsActive status = true) : orderStatusIsDone status = false := by
  cases status with
  | none => rfl
  | some status =>
    have hdisjoint : ∀ status ∈ activeStatuses, status ∉ doneStatuses := by decide
    exact decide_eq_false (hdisjoint status (of_decide_eq_true h))

/-- The codes that say neither. -/
theorem unclassified_iff {status : TradeStationOrderStatus} :
    orderStatusIsActive (some status) = false ∧ orderStatusIsDone (some status) = false ↔
      status ∈ [other, statusMessage, unknown] := by
  cases status <;> decide

end

namespace OrderSnapshot

/-- `status_value`. -/
def statusValue (snapshot : OrderSnapshot) : Option TradeStationOrderStatus :=
  normalizeOrderStatus snapshot.status

/-- `is_active`. -/
def isActive (snapshot : OrderSnapshot) : Bool := orderStatusIsActive snapshot.statusValue

/-- `is_done`. -/
def isDone (snapshot : OrderSnapshot) : Bool := orderStatusIsDone snapshot.statusValue

/-- `is_working`. -/
def isWorking (snapshot : OrderSnapshot) : Bool := orderStatusIsWorking snapshot.statusValue

/-- `can_cancel`. -/
def canCancel (snapshot : OrderSnapshot) : Bool := orderStatusCanCancel snapshot.statusValue

/-- `can_replace`. -/
def canReplace (snapshot : OrderSnapshot) : Bool := orderStatusCanReplace snapshot.statusValue

end OrderSnapshot

/-! ## Updates of a trade -/

/-- What comes in about a trade. -/
inductive TradeUpdate
  | snapshot (order : OrderSnapshot)
  | event (event : Json.Dict)

namespace TradeStationTrade

/-- `status`. -/
def status (trade : TradeStationTrade) : Option TradeStationOrderStatus :=
  trade.latestOrder.bind OrderSnapshot.statusValue

/-- `is_done`. -/
def isDone (trade : TradeStationTrade) : Bool := trade.latestOrder.any OrderSnapshot.isDone

/-- `is_active`. -/
def isActive (trade : TradeStationTrade) : Bool := trade.latestOrder.any OrderSnapshot.isActive

/-- `with_order_snapshot`. -/
def withOrderSnapshot (trade : TradeStationTrade) (order : OrderSnapshot) : TradeStationTrade :=
  { trade with latestOrder := some order }

/-- `with_event`. -/
def withEvent (trade : TradeStationTrade) (event : Json.Dict) : TradeStationTrade :=
  { trade with events := trade.events ++ [event] }

/-- A trade behind an update. -/
def update (trade : TradeStationTrade) : TradeUpdate → TradeStationTrade
  | .snapshot order => trade.withOrderSnapshot order
  | .event event => trade.withEvent event

/-- A trade behind some updates. -/
def after (trade : TradeStationTrade) (updates : List TradeUpdate) : TradeStationTrade :=
  updates.foldl update trade

end TradeStationTrade

/-- The snapshot of an update. -/
def TradeUpdate.order : TradeUpdate → Option OrderSnapshot
  | .snapshot order => some order
  | .event _ => none

/-- The event of an update. -/
def TradeUpdate.message : TradeUpdate → Option Json.Dict
  | .snapshot _ => none
  | .event message => some message

namespace TradeStationTrade

/-- **A trade behind any updates** has the last snapshot and all events in order, and is what it was
otherwise. -/
theorem after_eq (trade : TradeStationTrade) (updates : List TradeUpdate) :
    trade.after updates =
      { trade with
        latestOrder := (updates.filterMap TradeUpdate.order).getLast?.or trade.latestOrder
        events := trade.events ++ updates.filterMap TradeUpdate.message } := by
  induction updates generalizing trade with
  | nil => simp [after]
  | cons update updates ih =>
    have hstep : trade.after (update :: updates) = (trade.update update).after updates := rfl
    rw [hstep, ih]
    cases update with
    | snapshot order =>
      have hlast : (order :: updates.filterMap TradeUpdate.order).getLast? =
          (updates.filterMap TradeUpdate.order).getLast?.or (some order) := by
        rw [List.getLast?_cons]
        cases (updates.filterMap TradeUpdate.order).getLast? <;> rfl
      have horders : (TradeUpdate.snapshot order :: updates).filterMap TradeUpdate.order =
          order :: updates.filterMap TradeUpdate.order := rfl
      rw [horders, List.filterMap_cons_none rfl, hlast]
      simp [TradeStationTrade.update, withOrderSnapshot]
    | event message =>
      have hmessages : (TradeUpdate.event message :: updates).filterMap TradeUpdate.message =
          message :: updates.filterMap TradeUpdate.message := rfl
      rw [List.filterMap_cons_none rfl, hmessages]
      simp [TradeStationTrade.update, withEvent]

/-- The last snapshot says whether a trade is over, and whether it is active. -/
theorem status_after (trade : TradeStationTrade) {updates : List TradeUpdate} {order : OrderSnapshot}
    (hlast : (updates.filterMap TradeUpdate.order).getLast? = some order) :
    (trade.after updates).status = order.statusValue ∧
      (trade.after updates).isDone = order.isDone ∧ (trade.after updates).isActive = order.isActive := by
  rw [after_eq, hlast]
  exact ⟨rfl, rfl, rfl⟩

/-- No trade is over and active. -/
theorem isActive_not_done (trade : TradeStationTrade) (h : trade.isActive = true) :
    trade.isDone = false := by
  unfold isActive at h
  unfold isDone
  cases hlatest : trade.latestOrder with
  | none => rfl
  | some order =>
    rw [hlatest] at h
    exact active_not_done h

/-- **No update settles an ambiguity**, nor an error of the acknowledgement. A snapshot only makes up for an
acknowledgement that named no order. -/
theorem reconcileRequired_after (trade : TradeStationTrade) (updates : List TradeUpdate) :
    (trade.after updates).reconcileRequired = true ↔ trade.isAmbiguous = true ∨
      ∃ ack, trade.ack = some ack ∧ (ack.errors ≠ [] ∨ ack.firstOrderId = none ∧
        trade.latestOrder = none ∧ updates.filterMap TradeUpdate.order = []) := by
  rw [after_eq]
  unfold reconcileRequired isAmbiguous orderId
  cases hack : trade.ack with
  | none => simp
  | some ack =>
    cases hlatest : trade.latestOrder with
    | some order =>
      cases hsnapshots : (updates.filterMap TradeUpdate.order).getLast? <;> simp
    | none =>
      cases hsnapshots : (updates.filterMap TradeUpdate.order).getLast? with
      | none => simp [List.getLast?_eq_none_iff.1 hsnapshots, or_comm]
      | some order =>
        have hne : updates.filterMap TradeUpdate.order ≠ [] := by
          intro hnil
          rw [hnil] at hsnapshots
          cases hsnapshots
        simp [hne]

end TradeStationTrade

end TradeStation
