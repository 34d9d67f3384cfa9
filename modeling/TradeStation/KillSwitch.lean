import TradeStation.RiskChecks

/-!
# The kill switch and calls under way

The kill-switch file may be created while a submission awaits something. A submission looks for the
file before it awaits anything, once for each order or once for a replacement, and never again.

* `submit_killSwitch`: so the file stops a submission that finds it, and no other.
* `cancelOrder_neverLooks`: cancelling does not look.
* `submit_writesLate`: a file created while the token is awaited does not hold the order back.
-/

namespace TradeStation

open Python Foundations

/-- Awaiting the token provider, the transport or the sleeper. -/
def Op.Suspends : Op → Prop
  | .provider _ | .send _ | .sleep _ => True
  | _ => False

/-- The file was created at an event of the run, and stays: looking finds it from there on, and does
not before. -/
def CreatedAt (path : PyStr) (created : ℕ) (tr : Trace Op Op.Answer) : Prop :=
  ∀ (i : ℕ) (answer : Bool), tr[i]? = some ⟨.exists path, answer⟩ → (answer = true ↔ created ≤ i)

/-- An order write is handed to the transport behind a suspension point at which the file existed. -/
def WritesLate (created : ℕ) (tr : Trace Op Op.Answer) : Prop :=
  ∃ i j, created ≤ i ∧ i < j ∧ (∃ event, tr[i]? = some event ∧ event.op.Suspends) ∧
    ∃ event, tr[j]? = some event ∧ event.op.IsWrite

/-! ## Looking comes first -/

theorem isLook_not_isWrite {op : Op} (h : op.IsLook) : ¬op.IsWrite := by
  cases op with
  | «exists» path => exact fun h => h
  | _ => exact h.elim

/-- So many looks that found no file, where there is a file to look for. -/
def Clear (config : TradeStationConfig) (n : ℕ) (tr : Trace Op Op.Answer) : Prop :=
  (∀ event ∈ tr, ∃ path, config.killSwitchFile = some path ∧ event = ⟨.exists path, false⟩) ∧
    (config.killSwitchFile ≠ none → tr.length = n)

theorem clear_look (config : TradeStationConfig) : Clear config 1 (look config) := by
  unfold Clear look
  cases hfile : config.killSwitchFile with
  | none => simp
  | some path => simp

theorem clear_looks (config : TradeStationConfig) (nodes : List OrderFields) :
    Clear config nodes.length (looks config nodes) := by
  have heach : ∀ event ∈ looks config nodes, event ∈ look config := by
    intro event hevent
    obtain ⟨_, -, hmem⟩ := List.mem_flatMap.1 hevent
    exact hmem
  obtain ⟨hfound, hlooked⟩ := clear_look config
  refine ⟨fun event hevent => hfound event (heach event hevent), fun hfile => ?_⟩
  have hlengths : (nodes.map fun _ => (look config).length).sum = nodes.length := by
    rw [hlooked hfile, List.map_const', List.sum_replicate_nat, Nat.mul_one]
  rw [looks, List.length_flatMap]
  exact hlengths

/-- How often a submission looks before it writes. -/
def Submission.looked : Submission → ℕ
  | .order tree => tree.nodes.length
  | .group trees => trees.nodes.length
  | .replacement .. => 1

/-- A call looks first, and goes on without looking where it found nothing. -/
abbrev LooksFirst {α : Type} (config : TradeStationConfig) (n : ℕ) (p : Program α) : Prop :=
  Coro.Leads Op.IsLook
    (fun tr tr' _ => Clear config n tr ∧ ∀ event ∈ tr', ¬event.op.IsLook) p

theorem not_isLook_ofCall {client : RestClient} {call : Call} {op : Op}
    (h : Op.OfCall client call op) : ¬op.IsLook := by
  cases h <;> exact fun h => h

theorem only_get_not_isLook (client : RestClient) (path : PyStr) :
    Coro.Only (¬Op.IsLook ·) (client.get path) :=
  (only_requestJson client _).mono fun _ => not_isLook_ofCall

theorem only_settle_not_isLook (client : TradeStationClient) (request : OrderWriteRequest)
    (payload : Json.Dict) (call : Call) :
    Coro.Only (¬Op.IsLook ·) (client.settle request payload (client.rest.requestJson call)) :=
  only_settle ((only_requestJson client.rest call).mono fun _ => not_isLook_ofCall)

/-- A validation that looks, and a rest that does not. -/
theorem looksFirst_bind {α : Type} {config : TradeStationConfig} {n : ℕ} {check : Program Unit}
    {f : Unit → Program α} (honly : Coro.Only Op.IsLook check)
    (hclear : ∀ tr, Coro.Runs check tr (.ok ()) → Clear config n tr)
    (hf : Coro.Only (¬Op.IsLook ·) (f ())) : LooksFirst config n (check >>= f) := by
  refine .bind honly fun _ tr₁ hok => Coro.leads_here fun tr r hrun => ⟨?_, hf.of_runs hrun⟩
  rw [List.append_nil]
  exact hclear tr₁ hok

theorem nodes_ne_nil (order : OrderRequest) : order.nodes ≠ [] := by
  cases order with
  | mk fields osos => simp [OrderRequest.nodes]

theorem groupNodes_ne_nil (group : GroupOrderRequest) : group.nodes ≠ [] := by
  obtain ⟨order, orders, horders⟩ := List.exists_cons_of_ne_nil group.nonempty
  rw [GroupOrderRequest.nodes, horders, OrderRequest.nodesOf]
  exact List.append_ne_nil_of_left_ne_nil (nodes_ne_nil order) _

theorem looked_pos (submission : Submission) : 0 < submission.looked := by
  cases submission with
  | order order => exact List.length_pos_of_ne_nil (nodes_ne_nil order)
  | group group => exact List.length_pos_of_ne_nil (groupNodes_ne_nil group)
  | replacement => exact Nat.one_pos

theorem submit_leadsLooking (client : TradeStationClient) (submission : Submission) :
    LooksFirst client.config submission.looked (client.submit submission) := by
  cases submission with
  | order order =>
    refine .check fun _ _ => .check fun _ _ => looksFirst_bind ?_ ?_ ?_
    · exact only_validateOrderForConfig (fun _ => trivial) client.lib client.config order
    · intro tr hok
      rw [((runs_validateOrderForConfig_ok client.lib client.config order tr).1 hok).2]
      exact clear_looks client.config order.nodes
    · exact only_settle_not_isLook client _ _ _
  | group group =>
    refine .check fun _ _ => .check fun _ _ => looksFirst_bind ?_ ?_ ?_
    · exact only_validateOrdersForConfig (fun _ => trivial) client.lib client.config group.orders
    · intro tr hok
      rw [((runs_validateOrdersForConfig_ok client.lib client.config group.orders tr).1 hok).2]
      exact clear_looks client.config group.nodes
    · exact only_settle_not_isLook client _ _ _
  | replacement accountId orderId replacement =>
    refine .check fun _ _ => .check fun _ _ => .check fun _ _ => looksFirst_bind ?_ ?_ ?_
    · exact only_assertCanSubmitOrders (fun _ => trivial) client.lib client.config accountId
    · intro tr hok
      rw [(runs_assertCanSubmitOrders_ok.1 hok).2]
      exact clear_look client.config
    · refine (Coro.only_ofExcept _ _).bind fun cleaned => Coro.Only.bind ?_ fun _ => ?_
      · exact only_assertOrderBelongsToAccount client
          (only_getOrdersById client (only_get_not_isLook client.rest) _ _)
      · split
        · trivial
        · refine (Coro.only_ofExcept _ _).bind fun _ => (Coro.only_ofExcept _ _).bind fun _ => ?_
          exact only_settle_not_isLook client _ _ _

/-! ## What the file stops -/

/-- What the file does to a run that looks in `before`, `n` times if it writes, and not in `after`. -/
structure KillSwitchRun {α : Type} (config : TradeStationConfig) (n : ℕ)
    (before after : Trace Op Op.Answer) (r : Except Exc α) : Prop where
  looks : ∀ event ∈ before, event.op.IsLook
  rest : ∀ event ∈ after, ¬event.op.IsLook
  /-- An order is written only where the file was looked for and was not there yet. -/
  written : ∀ path created, config.killSwitchFile = some path →
    CreatedAt path created (before ++ after) → (∃ event ∈ before ++ after, event.op.IsWrite) →
      before.length = n ∧ before.length ≤ created
  /-- A file that is there in time stops the call before it awaits anything. -/
  stopped : ∀ path created, config.killSwitchFile = some path →
    CreatedAt path created (before ++ after) → created < before.length →
      (∃ exc, r = .error exc) ∧ after = []
  /-- A file that comes later might as well not come. -/
  unseen : ∀ path created, CreatedAt path created (before ++ after) → before.length ≤ created →
    ∀ created', before.length ≤ created' → CreatedAt path created' (before ++ after)

/-- What comes behind the looks is not seen. -/
theorem createdAt_later {path : PyStr} {created created' : ℕ} {before after : Trace Op Op.Answer}
    (hrest : ∀ event ∈ after, ¬event.op.IsLook) (h : CreatedAt path created (before ++ after))
    (hle : before.length ≤ created) (hle' : before.length ≤ created') :
    CreatedAt path created' (before ++ after) := by
  intro i answer hlook
  by_cases hi : i < before.length
  · rw [h i answer hlook]
    omega
  · rw [List.getElem?_append_right (by omega)] at hlook
    exact absurd trivial (hrest _ (List.mem_of_getElem? hlook))

theorem killSwitchRun_of_looksFirst {α : Type} {config : TradeStationConfig} {n : ℕ} {p : Program α}
    (h : LooksFirst config n p) {tr : Trace Op Op.Answer} {r : Except Exc α}
    (hrun : Coro.Runs p tr r) :
    ∃ before after, tr = before ++ after ∧ KillSwitchRun config n before after r := by
  rcases h tr r hrun with ⟨hraised, hlooks⟩ | ⟨before, after, rfl, hlooks, hclear, hrest⟩
  · refine ⟨tr, [], by simp, hlooks, by simp, ?_, fun _ _ _ _ _ => ⟨hraised, rfl⟩, ?_⟩
    · rintro path created - - ⟨event, hevent, hwrite⟩
      rw [List.append_nil] at hevent
      exact absurd hwrite (isLook_not_isWrite (hlooks event hevent))
    · intro path created hcreated hle created' hle'
      exact createdAt_later (by simp) hcreated hle hle'
  · obtain ⟨hfound, hlooked⟩ := hclear
    -- every look found nothing, so that the file was created behind the last of them
    have hlate : ∀ path created, config.killSwitchFile = some path →
        CreatedAt path created (before ++ after) → before.length ≤ created := by
      intro path created hfile hcreated
      by_contra hlt
      have hmem : before[created]? = some before[created] := List.getElem?_eq_getElem (by omega)
      obtain ⟨path', hfile', hevent⟩ := hfound _ (List.mem_of_getElem? hmem)
      rw [hfile] at hfile'
      cases hfile'
      have hlook : (before ++ after)[created]? = some ⟨.exists path, false⟩ := by
        rw [List.getElem?_append_left (by omega), hmem, hevent]
      have hfalse := (hcreated created false hlook).2 le_rfl
      cases hfalse
    refine ⟨before, after, rfl, hlooks, hrest, ?_, ?_, ?_⟩
    · intro path created hfile hcreated _
      exact ⟨hlooked (by simp [hfile]), hlate path created hfile hcreated⟩
    · intro path created hfile hcreated hlt
      have hle := hlate path created hfile hcreated
      omega
    · intro path created hcreated hle created' hle'
      exact createdAt_later hrest hcreated hle hle'

/-- Cancelling does not look for the file. -/
theorem cancelOrder_neverLooks (client : TradeStationClient) (accountId orderId : PyStr) :
    Coro.Only (¬Op.IsLook ·) (client.cancelOrder accountId orderId) := by
  refine (Coro.only_ofExcept _ _).bind fun _ => (Coro.only_ofExcept _ _).bind fun _ =>
    (Coro.only_ofExcept _ _).bind fun _ => (Coro.only_ofExcept _ _).bind fun cleaned =>
    Coro.Only.bind ?_ fun _ => (Coro.only_ofExcept _ _).bind fun path => ?_
  · exact only_assertOrderBelongsToAccount client
      (only_getOrdersById client (only_get_not_isLook client.rest) _ _)
  · exact (only_requestJson client.rest _).mono fun _ => not_isLook_ofCall

/-- **The kill switch stops the calls that find it.** A submission looks for the file before it
awaits anything; it writes only where it looked once for each order (once for a replacement) and found
nothing, and a file that is created behind the looks is not seen. Cancelling does not look at all. -/
theorem submit_killSwitch (client : TradeStationClient) :
    (∀ submission, 0 < submission.looked ∧ ∀ tr r, Coro.Runs (client.submit submission) tr r →
      ∃ before after, tr = before ++ after ∧
        KillSwitchRun client.config submission.looked before after r) ∧
    ∀ accountId orderId tr r, Coro.Runs (client.cancelOrder accountId orderId) tr r →
      ∀ event ∈ tr, ¬event.op.IsLook := by
  constructor
  · refine fun submission => ⟨looked_pos submission, fun tr r hrun => ?_⟩
    exact killSwitchRun_of_looksFirst (submit_leadsLooking client submission) hrun
  · intro accountId orderId tr r hrun
    exact (cancelOrder_neverLooks client accountId orderId).of_runs hrun

/-! ## A file that comes too late -/

/-- A client for the simulator that looks for a file. -/
def killClient : TradeStationClient :=
  { simTradeClient with config := { simConfig with killSwitchFile := some (str "kill") } }

/-- Validating the order looks once. -/
theorem validate_buy_kill :
    validateOrderForConfig killClient.lib killClient.config (.mk buyFields []) =
      .await (.exists (str "kill")) fun active =>
        if active then .raise (.configuration (str "kill switch is active: " ++ str "kill"))
        else .ret () := by
  have hsingle : validateSingleOrderForConfig buyFields killClient.config = .ok () :=
    validateSingle_buy
  have hlook : killClient.config.assertCanSubmitOrders killClient.lib buyFields.accountId =
      .await (.exists (str "kill")) fun active =>
        if active then .raise (.configuration (str "kill switch is active: " ++ str "kill"))
        else .ret () := rfl
  rw [validateOrderForConfig, hsingle, validateOrdersForConfig, hlook]
  simp only [Coro.await_bind]
  congr 1
  funext active
  cases active <;> rfl

/-- A look that finds nothing, and then the order. -/
def lookedAndSent : Trace Op Op.Answer :=
  ⟨.exists (str "kill"), false⟩ ::
    [⟨.provider .getAccessToken, .ok (str "T")⟩,
      ⟨.send (killClient.rest.request buyCall (str "T")), .ok ⟨200, [], ascii "\x7b\x7d"⟩⟩]

theorem runs_lookedAndSent :
    ∃ r, Coro.Runs (killClient.submit (.order (.mk buyFields []))) lookedAndSent r := by
  have hscope : killClient.requireScope tradeScope = .ok () := rfl
  have hcapability : TradeStationClient.requireCapability
      killClient.capabilities.supportsSingleOrders "supports_single_orders" = .ok () := rfl
  have hbody : (⟨200, [], ascii "\x7b\x7d"⟩ : HTTPResponse).json = some (.obj []) := by
    rfl
  unfold TradeStationClient.submit TradeStationClient.placeOrder
  simp only [hscope, hcapability, validate_buy_kill, Coro.ofExcept_ok, Coro.ret_bind,
    Coro.await_bind]
  have hwrite := runs_requestJson_answered hbody killClient.rest buyCall
  have hsettle : ∃ r, Coro.Runs (killClient.settle (.order (.mk buyFields []))
      (orderPayload killClient.lib (.mk buyFields [])) (killClient.rest.requestJson buyCall)) _ r :=
    ⟨_, settle_of_runs _ _ hwrite⟩
  obtain ⟨r, hr⟩ := hsettle
  exact ⟨r, false, _, rfl, hr⟩

/-- The file is not there yet when it is looked for; it is created while the token is awaited, and
the order is sent. -/
theorem submit_writesLate :
    ¬∀ (client : TradeStationClient) (submission : Submission) (path : PyStr) (created : ℕ)
      (tr : Trace Op Op.Answer) (r : Except Exc TradeStationTrade),
      client.config.killSwitchFile = some path → Coro.Runs (client.submit submission) tr r →
      CreatedAt path created tr → ¬WritesLate created tr := by
  intro hall
  obtain ⟨r, hrun⟩ := runs_lookedAndSent
  refine hall killClient _ (str "kill") 1 lookedAndSent r rfl hrun ?_ ?_
  · intro i answer hlook
    match i with
    | 0 =>
      cases hlook
      simp
    | 1 => cases hlook
    | 2 => cases hlook
    | i + 3 => simp [lookedAndSent] at hlook
  · refine ⟨1, 2, le_rfl, by omega, ⟨_, rfl, trivial⟩, _, rfl, ?_⟩
    show str "POST" ≠ str "GET"
    decide

end TradeStation
