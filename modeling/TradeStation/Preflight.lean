import TradeStation.Submissions

/-!
# The preflight of replacing and cancelling

The endpoint that replaces or cancels an order names no account. What ties the write to the account
is what comes before it: the configuration's checks, and a lookup of the order in the account.

* `runs_assertOrderBelongsToAccount`: a lookup that returns was answered with a snapshot of the order.
* `replaceOrder_leads`, `cancelOrder_leads`: both calls write only behind that lookup.
* `orderChange_scoped`: so every write of either is to the order that was found in the account.
-/

namespace TradeStation

open Python Foundations

/-! ## The lookup -/

/-- The URL of an order of an account. -/
def orderUrl (client : TradeStationClient) (accountPath orderPath : PyStr) : PyStr :=
  client.config.baseUrl ++
    (str "/brokerage/accounts/" ++ accountPath ++ str "/orders/" ++ orderPath)

/-- A `GET` of the order in the account was answered with a snapshot of the order that names this
account or none. -/
def OrderFound (client : TradeStationClient) (accountId orderId : PyStr)
    (tr : Trace Op Op.Answer) : Prop :=
  ∃ accountPath orderPath request response payload snapshots snapshot,
    quote accountId = some accountPath ∧ quote (strip orderId) = some orderPath ∧
    ⟨.send request, .ok response⟩ ∈ tr ∧ request.method = str "GET" ∧
    request.url = orderUrl client accountPath orderPath ∧
    isSuccess response = true ∧ response.json = some (.obj payload) ∧
    client.orderSnapshots payload = .ok snapshots ∧ snapshot ∈ snapshots ∧
    snapshot.orderId = strip orderId ∧
    (snapshot.accountId = none ∨ snapshot.accountId = some accountId)

/-- The configuration lets the account be traded and read. -/
structure AccountCleared (config : TradeStationConfig) (accountId : PyStr) : Prop where
  allowed : accountId ∈ config.accountAllowlist
  trade : tradeScope ∈ config.requestedScopes
  readAccount : readAccountScope ∈ config.requestedScopes

theorem OrderFound.mono {client : TradeStationClient} {accountId orderId : PyStr}
    {tr tr' : Trace Op Op.Answer} (h : OrderFound client accountId orderId tr) (hsub : tr ⊆ tr') :
    OrderFound client accountId orderId tr' := by
  obtain ⟨accountPath, orderPath, request, response, payload, snapshots, snapshot, haccount, horder,
    hmem, hrest⟩ := h
  exact ⟨accountPath, orderPath, request, response, payload, snapshots, snapshot, haccount, horder,
    hsub hmem, hrest⟩

section
variable {client : TradeStationClient}

theorem assertAccountAllowed_ok {config : TradeStationConfig} {lib : Library} {accountId : PyStr}
    {u : Unit} (h : config.assertAccountAllowed lib accountId = .ok u) :
    accountId ∈ config.accountAllowlist := by
  unfold TradeStationConfig.assertAccountAllowed at h
  split_ifs at h with hmem
  exact hmem

theorem requireScope_ok {scope : PyStr} {u : Unit} (h : client.requireScope scope = .ok u) :
    scope ∈ client.config.requestedScopes := by
  unfold TradeStationClient.requireScope TradeStationConfig.assertScopeRequested at h
  split_ifs at h with hmem
  exact hmem

theorem quoted_ok {text path : PyStr} (h : TradeStationClient.quoted text = .ok path) :
    quote text = some path := by
  unfold TradeStationClient.quoted at h
  split at h
  · next hquote =>
    cases h
    exact hquote
  · cases h

theorem foldlM_allowed {config : TradeStationConfig} {lib : Library} {accountIds : List PyStr}
    {u u' : PUnit}
    (h : accountIds.foldlM (fun _ accountId => config.assertAccountAllowed lib accountId) u = .ok u') :
    ∀ accountId ∈ accountIds, accountId ∈ config.accountAllowlist := by
  induction accountIds generalizing u with
  | nil => simp
  | cons accountId accountIds ih =>
    rw [List.foldlM_cons] at h
    cases hallowed : config.assertAccountAllowed lib accountId with
    | error exc =>
      rw [hallowed] at h
      cases h
    | ok u =>
      rw [hallowed] at h
      intro other hmem
      rcases List.mem_cons.1 hmem with rfl | hmem
      · exact assertAccountAllowed_ok hallowed
      · exact ih h other hmem

theorem mapM_quoted {texts paths : List PyStr}
    (h : texts.mapM TradeStationClient.quoted = .ok paths) : texts.mapM quote = some paths := by
  induction texts generalizing paths with
  | nil =>
    cases h
    rfl
  | cons text texts ih =>
    rw [List.mapM_cons] at h ⊢
    cases hquoted : TradeStationClient.quoted text with
    | error exc =>
      rw [hquoted] at h
      cases h
    | ok path =>
      rw [hquoted] at h
      cases hrest : texts.mapM TradeStationClient.quoted with
      | error exc =>
        simp only [hrest] at h
        cases h
      | ok rest =>
        simp only [hrest] at h
        cases h
        rw [quoted_ok hquoted, ih hrest]
        rfl

/-- Every account of a path is allowed. -/
theorem accountPath_ok {accountIds : List PyStr} {path : PyStr}
    (h : client.accountPath accountIds = .ok path) :
    (∀ accountId ∈ accountIds, accountId ∈ client.config.accountAllowlist) ∧
      ∃ paths, accountIds.mapM quote = some paths ∧ path = join (str ",") paths := by
  unfold TradeStationClient.accountPath at h
  by_cases hnone : accountIds = []
  · rw [if_pos hnone] at h
    cases h
  by_cases hmany : maxAccountIdsPerRequest < accountIds.length
  · rw [if_neg hnone, if_pos hmany] at h
    cases h
  rw [if_neg hnone, if_neg hmany] at h
  simp only [bind_pure_comp, List.forIn_yield_eq_foldlM, id_map'] at h
  cases hall : accountIds.foldlM
      (fun _ accountId => client.config.assertAccountAllowed client.lib accountId) PUnit.unit with
  | error exc =>
    simp only [hall] at h
    cases h
  | ok u =>
    simp only [hall] at h
    refine ⟨foldlM_allowed hall, ?_⟩
    cases hquoted : accountIds.mapM TradeStationClient.quoted with
    | error exc =>
      simp only [hquoted] at h
      cases h
    | ok paths =>
      simp only [hquoted] at h
      cases h
      exact ⟨paths, mapM_quoted hquoted, rfl⟩

theorem accountPath_singleton {accountId path : PyStr}
    (h : client.accountPath [accountId] = .ok path) :
    accountId ∈ client.config.accountAllowlist ∧ quote accountId = some path := by
  obtain ⟨hallowed, paths, hpaths, rfl⟩ := accountPath_ok h
  refine ⟨hallowed accountId List.mem_cons_self, ?_⟩
  cases hquoted : quote accountId with
  | none => simp [hquoted] at hpaths
  | some quoted =>
    simp only [List.mapM_cons, hquoted] at hpaths
    cases hpaths
    simp [join]

theorem orderIdsPath_singleton {orderId path : PyStr}
    (h : TradeStationClient.orderIdsPath [orderId] = .ok path) :
    quote (strip orderId) = some path := by
  unfold TradeStationClient.orderIdsPath at h
  by_cases hblank : strip orderId = []
  · simp [hblank] at h
    cases h
  · have hcleaned : ([orderId].map strip).filter (· ≠ []) = [strip orderId] := by
      simp [hblank]
    simp only [hcleaned] at h
    rw [if_neg (by simp), if_neg (by simp [maxOrderIdsPerRequest])] at h
    cases hquoted : TradeStationClient.quoted (strip orderId) with
    | error exc =>
      simp only [List.mapM_cons, hquoted] at h
      cases h
    | ok quoted =>
      simp only [List.mapM_cons, hquoted] at h
      cases h
      simpa [join] using quoted_ok hquoted

theorem url_slash (client : RestClient) {path rest : PyStr} (h : path = 0x2f :: rest) :
    client.url path = client.config.baseUrl ++ path := by
  subst h
  rfl

/-- **A lookup that returns was answered** with a snapshot of the order. -/
theorem runs_assertOrderBelongsToAccount {accountId orderId : PyStr} {tr : Trace Op Op.Answer}
    {u : Unit} (h : Coro.Runs (client.assertOrderBelongsToAccount accountId (strip orderId)) tr (.ok u)) :
    OrderFound client accountId orderId tr := by
  obtain ⟨found, tr₁, tr₂, rfl, hfound, hmatch⟩ := Coro.runs_bind_ok.1 h
  obtain ⟨-, -, hfound⟩ := Coro.runs_check_bind_ok.1 hfound
  obtain ⟨accountPath, haccount, hfound⟩ := Coro.runs_check_bind_ok.1 hfound
  obtain ⟨orderPath, horder, hfound⟩ := Coro.runs_check_bind_ok.1 hfound
  obtain ⟨payload, tr₃, tr₄, rfl, hget, hsnapshots⟩ := Coro.runs_bind_ok.1 hfound
  rw [Coro.runs_ofExcept] at hsnapshots
  obtain ⟨token, response, hmem, hsuccess, hjson⟩ := answered_of_runs hget
  have hany : found.any (fun snapshot => snapshot.orderId = strip orderId &&
      (snapshot.accountId = none || snapshot.accountId = some accountId)) = true := by
    by_contra hnone
    rw [if_neg hnone] at hmatch
    cases hmatch.2
  obtain ⟨snapshot, hsnapshot, hids⟩ := List.any_eq_true.1 hany
  simp only [Bool.and_eq_true, Bool.or_eq_true, decide_eq_true_eq] at hids
  have hslash : str "/brokerage/accounts/" ++ accountPath ++ str "/orders/" ++ orderPath =
      0x2f :: (str "brokerage/accounts/" ++ accountPath ++ str "/orders/" ++ orderPath) := rfl
  have hurl := url_slash client.rest hslash
  have horderPath := orderIdsPath_singleton horder
  rw [strip_strip] at horderPath
  exact ⟨accountPath, orderPath, _, response, payload, found, snapshot,
    (accountPath_singleton haccount).2, horderPath,
    List.mem_append_left _ (List.mem_append_left _ hmem), rfl, hurl, hsuccess, hjson,
    hsnapshots.2.symm, hsnapshot, hids⟩

/-! ## What both calls write -/

/-- The write is to the order of this ID and to no other. -/
def TargetsOrder (client : TradeStationClient) (orderId : PyStr) (request : HTTPRequest) : Prop :=
  ∃ path, quote (strip orderId) = some path ∧
    request.url = client.config.baseUrl ++ (str "/orderexecution/orders/" ++ path) ∧
    0x2f ∉ path ∧
    ∀ other, IsText orderId → IsText other → quote other = some path → other = strip orderId

theorem targetsOrder_request {orderId path token : PyStr} {call : Call}
    (hpath : TradeStationClient.quoted (strip orderId) = .ok path)
    (hcall : call.path = str "/orderexecution/orders/" ++ path) :
    TargetsOrder client orderId (client.rest.request call token) := by
  have hquote := quoted_ok hpath
  have hslash : str "/orderexecution/orders/" ++ path =
      0x2f :: (str "orderexecution/orders/" ++ path) := rfl
  have hurl := url_slash client.rest hslash
  refine ⟨path, hquote, ?_, fun hmem => (quote_reserved hquote _ hmem).1 rfl, ?_⟩
  · rw [RestClient.request, hcall, hurl]
    rfl
  · intro other htext hother hsame
    have hstripped : IsText (strip orderId) := fun c hc => htext c (mem_of_mem_strip hc)
    exact quote_inj hother hstripped hsame hquote

/-- What becomes of a call once its preflight is passed: it sends nothing but its write, and if it
sends nothing it raises, but for an `AmbiguousOrderState` of the token provider itself. -/
structure Writes {α : Type} (client : TradeStationClient) (orderId method : PyStr)
    (tr : Trace Op Op.Answer) (r : Except Exc α) : Prop where
  target : ∀ request answer, ⟨.send request, answer⟩ ∈ tr →
    request.method = method ∧ TargetsOrder client orderId request
  unsent : (∀ event ∈ tr, ¬event.op.IsWrite) → (∃ exc, r = .error exc) ∨
    ∃ which exc, ⟨.provider which, .error exc⟩ ∈ tr ∧ exc.isAmbiguous = true

theorem writes_of_runs {α : Type} {orderId path : PyStr} {call : Call} {tr : Trace Op Op.Answer}
    {r' : Except Exc Json.Dict} {r : Except Exc α} (hsafe : call.retrySafe = false)
    (hmethod : call.method ≠ str "GET")
    (hpath : TradeStationClient.quoted (strip orderId) = .ok path)
    (hcall : call.path = str "/orderexecution/orders/" ++ path)
    (hrun : Coro.Runs (client.rest.requestJson call) tr r')
    (hr : ∀ exc, r' = .error exc → (∃ exc', r = .error exc') ∨ exc.isAmbiguous = true) :
    Writes client orderId call.method tr r := by
  have hsent : ∀ request answer, ⟨.send request, answer⟩ ∈ tr →
      request.method = call.method ∧ TargetsOrder client orderId request := by
    intro request answer hmem
    have hop := (only_requestJson client.rest call).of_runs hrun _ hmem
    cases hop with
    | send token => exact ⟨rfl, targetsOrder_request hpath hcall⟩
  refine ⟨hsent, fun hunsent => ?_⟩
  have hnone : ∀ request answer, ⟨.send request, answer⟩ ∉ tr := by
    intro request answer hmem
    apply hunsent _ hmem
    show request.method ≠ str "GET"
    rw [(hsent request answer hmem).1]
    exact hmethod
  cases writeRun_of_runs hsafe hrun with
  | noToken refreshed exc =>
    rcases hr exc rfl with hraised | hambiguous
    · exact .inl hraised
    · exact .inr ⟨_, exc, List.mem_cons_self, hambiguous⟩
  | answered | noRefresh | refreshed =>
    exact absurd (List.mem_cons_of_mem _ List.mem_cons_self) (hnone _ _)

/-- The replacement validates, and passes the configuration's checks. -/
def ReplacementOk (client : TradeStationClient) (replacement : Replacement) : Prop :=
  ∃ request, coerceReplaceRequest replacement = some request ∧
    validateReplaceForConfig request client.config = .ok ()

theorem orderIdValue_ok {orderId cleaned : PyStr}
    (h : TradeStationClient.orderIdValue orderId = .ok cleaned) :
    strip orderId ≠ [] ∧ cleaned = strip orderId := by
  unfold TradeStationClient.orderIdValue at h
  split_ifs at h with hblank
  cases h
  exact ⟨hblank, rfl⟩

variable (client) in
/-- **Replacing writes only behind the lookup** of an order it may replace as it is asked to. -/
theorem replaceOrder_leads (accountId orderId : PyStr) (replacement : Replacement) :
    Coro.Leads (¬Op.IsWrite ·)
      (fun tr tr' r => AccountCleared client.config accountId ∧
        OrderFound client accountId orderId tr ∧ ReplacementOk client replacement ∧
        Writes client orderId (str "PUT") tr' r)
      (client.replaceOrder accountId orderId replacement) := by
  refine .check fun _ htrade => .check fun _ hread => .check fun _ _ =>
    .bind ?_ fun _ before hcan => .check fun cleaned hcleaned => .bind ?_ fun _ lookup hlookup => ?_
  · exact only_assertCanSubmitOrders (fun _ h => h) client.lib client.config accountId
  · exact only_assertOrderBelongsToAccount client
      (only_getOrdersById client (only_get client.rest) _ _)
  obtain ⟨-, rfl⟩ := orderIdValue_ok hcleaned
  obtain ⟨_, hallowed, -⟩ := Coro.runs_check_bind_ok.1 hcan
  have hfound := runs_assertOrderBelongsToAccount hlookup
  split
  · exact Coro.leads_raise _
  · next request hrequest =>
    refine .check fun _ hvalid => .check fun path hpath => Coro.leads_here fun tr r hrun => ?_
    obtain ⟨r', hwrite, hsettled⟩ := runs_settle hrun
    refine ⟨⟨assertAccountAllowed_ok hallowed, requireScope_ok htrade, requireScope_ok hread⟩,
      hfound.mono (by simp), ⟨request, hrequest, hvalid⟩, writes_of_runs rfl ?_ hpath rfl hwrite ?_⟩
    · show str "PUT" ≠ str "GET"
      decide
    · rintro exc rfl
      simp only [Settled] at hsettled
      split_ifs at hsettled with hambiguous
      · exact .inr hambiguous
      · exact .inl ⟨exc, hsettled⟩

variable (client) in
/-- **Cancelling writes only behind the lookup.** -/
theorem cancelOrder_leads (accountId orderId : PyStr) :
    Coro.Leads (¬Op.IsWrite ·)
      (fun tr tr' r => AccountCleared client.config accountId ∧
        OrderFound client accountId orderId tr ∧ True ∧
        Writes client orderId (str "DELETE") tr' r)
      (client.cancelOrder accountId orderId) := by
  refine .check fun _ htrade => .check fun _ hread => .check fun _ hallowed =>
    .check fun cleaned hcleaned => .bind ?_ fun _ lookup hlookup => ?_
  · exact only_assertOrderBelongsToAccount client
      (only_getOrdersById client (only_get client.rest) _ _)
  obtain ⟨-, rfl⟩ := orderIdValue_ok hcleaned
  have hfound := runs_assertOrderBelongsToAccount hlookup
  refine .check fun path hpath => Coro.leads_here fun tr r hrun => ?_
  refine ⟨⟨assertAccountAllowed_ok hallowed, requireScope_ok htrade, requireScope_ok hread⟩,
    hfound.mono (by simp), trivial, writes_of_runs rfl ?_ hpath rfl hrun ?_⟩
  · show str "DELETE" ≠ str "GET"
    decide
  · exact fun exc hr => .inl ⟨exc, hr⟩

/-! ## Account-scoped writes -/

/-- What a call that changes an order of an account may do in a run: `valid` is what is asked of its
other arguments, and `method` how it writes. -/
structure AccountScoped {α : Type} (client : TradeStationClient) (accountId orderId : PyStr)
    (valid : Prop) (method : PyStr) (tr : Trace Op Op.Answer) (r : Except Exc α) : Prop where
  written : ∀ before request answer after, tr = before ++ ⟨.send request, answer⟩ :: after →
    request.method ≠ str "GET" → AccountCleared client.config accountId ∧
      OrderFound client accountId orderId before ∧ valid ∧ request.method = method ∧
      TargetsOrder client orderId request
  otherwise : ¬(AccountCleared client.config accountId ∧ OrderFound client accountId orderId tr ∧
      valid) → (∃ exc, r = .error exc) ∧ ∀ event ∈ tr, ¬event.op.IsWrite
  unsent : (∀ event ∈ tr, ¬event.op.IsWrite) → (∃ exc, r = .error exc) ∨
    ∃ which exc, ⟨.provider which, .error exc⟩ ∈ tr ∧ exc.isAmbiguous = true

theorem accountScoped_of_leads {α : Type} {accountId orderId method : PyStr} {valid : Prop}
    {p : Program α}
    (h : Coro.Leads (¬Op.IsWrite ·)
      (fun tr tr' r => AccountCleared client.config accountId ∧
        OrderFound client accountId orderId tr ∧ valid ∧ Writes client orderId method tr' r) p)
    {tr : Trace Op Op.Answer} {r : Except Exc α} (hrun : Coro.Runs p tr r) :
    AccountScoped client accountId orderId valid method tr r := by
  rcases h tr r hrun with
    ⟨hraised, hquiet⟩ | ⟨tr₁, tr₂, rfl, hquiet, hcleared, hfound, hvalid, hwrites⟩
  · refine ⟨?_, fun _ => ⟨hraised, hquiet⟩, fun _ => .inl hraised⟩
    rintro before request answer after rfl hmethod
    exact absurd hmethod (hquiet ⟨.send request, answer⟩ (by simp))
  · refine ⟨?_, ?_, ?_⟩
    · intro before request answer after heq hmethod
      -- the write is not in the quiet part, so that all of that is before it
      have hnot : ⟨.send request, answer⟩ ∉ tr₁ := fun hmem => hquiet _ hmem hmethod
      obtain ⟨before', rfl, rfl⟩ := Trace.behind hnot heq
      obtain ⟨hsame, htarget⟩ := hwrites.target request answer (by simp)
      exact ⟨hcleared, hfound.mono (by simp), hvalid, hsame, htarget⟩
    · intro hnot
      exact absurd ⟨hcleared, hfound.mono (by simp), hvalid⟩ hnot
    · intro hunsent
      rcases hwrites.unsent fun event hevent => hunsent event (by simp [hevent]) with
        hraised | ⟨which, exc, hmem, hambiguous⟩
      · exact .inl hraised
      · exact .inr ⟨which, exc, by simp [hmem], hambiguous⟩

variable (client) in
/-- **Replacing and cancelling are account-scoped** in every run: what is written is written to the
order that was found in the account, by a call that may, and any other run raises with no write
sent. -/
theorem orderChange_scoped (accountId orderId : PyStr) :
    (∀ replacement tr r, Coro.Runs (client.replaceOrder accountId orderId replacement) tr r →
      AccountScoped client accountId orderId (ReplacementOk client replacement) (str "PUT") tr r) ∧
    ∀ tr r, Coro.Runs (client.cancelOrder accountId orderId) tr r →
      AccountScoped client accountId orderId True (str "DELETE") tr r := by
  constructor
  · intro replacement tr r hrun
    exact accountScoped_of_leads (replaceOrder_leads client accountId orderId replacement) hrun
  · intro tr r hrun
    exact accountScoped_of_leads (cancelOrder_leads client accountId orderId) hrun

end

end TradeStation
