import TradeStation.Foundations.Pool
import TradeStation.Submissions

/-!
# What the broker has executed

Any number of submissions side by side, and a broker that executes the writes it is sent. What comes
back of a write need not say whether it was executed: a response may be lost, or come from a gateway.
The broker is a parameter, and is relied on for three things only, by `Broker.Reliable`: it executes nothing
but a write that it is sent, it does not turn down a write that it executes, and it does not acknowledge one
that it does not execute.

* `submit_writesLast`: a submission sends a write only where those before it were turned down.
* `submit_reports`: what a submission returns or raises tells of its writes.
* `submissions_agree`: so in every run each submission is executed at most once, and what it ends with
  agrees with the broker.
-/

namespace TradeStation

open Python Foundations

/-! ## Refusals -/

/-- An exception that tells that nothing was executed: the broker's own refusal, or a check of the
wrapper's that failed before the write. -/
def Exc.Definite : Exc → Prop
  | .api statusCode _ _ _ => 400 ≤ statusCode ∧ statusCode < 500
  | .authentication _ _ _ _ | .rateLimit _ _ _ _ _ => True
  | .configuration _ | .requestValidation _ | .capability _ | .value _ | .pagination _ => True
  | _ => False

/-- The answer turns the request down. A request that timed out is not turned down. -/
def Refusal : Except Exc HTTPResponse → Prop
  | .ok response =>
    400 ≤ response.statusCode ∧ response.statusCode < 500 ∧ response.statusCode ≠ 408
  | .error exc => exc.Definite

/-- A write that was turned down. -/
def Refused (event : Event Op Op.Answer) : Prop :=
  match event with
  | ⟨.send _, answer⟩ => Refusal answer
  | _ => False

/-- All writes were turned down. -/
def AllRefused (tr : Trace Op Op.Answer) : Prop := ∀ event ∈ tr, event.op.IsWrite → Refused event

/-- The event is a write that was acknowledged with an object. -/
def Acknowledged (event : Event Op Op.Answer) : Prop :=
  match event with
  | ⟨.send request, answer⟩ => request.method ≠ str "GET" ∧ ∃ body, Accepted answer body
  | _ => False

section
variable {tr tr' : Trace Op Op.Answer}

theorem allRefused_append : AllRefused (tr ++ tr') ↔ AllRefused tr ∧ AllRefused tr' :=
  List.forall_mem_append

theorem allRefused_quiet (h : ∀ event ∈ tr, ¬event.op.IsWrite) : AllRefused tr :=
  fun event hevent hwrite => absurd hwrite (h event hevent)

theorem AllRefused.quiet (h : AllRefused tr) (hquiet : ∀ event ∈ tr', ¬event.op.IsWrite) :
    AllRefused (tr ++ tr') :=
  allRefused_append.2 ⟨h, allRefused_quiet hquiet⟩

end

/-! ## The broker -/

/-- The writes that the broker has executed, in order, each with the submission that sent it. -/
abbrev Executions (I : Type) := List (I × HTTPRequest)

/-- What the broker has executed of one submission. -/
def Executions.of {I : Type} [DecidableEq I] (i : I) (executions : Executions I) : List HTTPRequest :=
  executions.filterMap fun execution => if execution.1 = i then some execution.2 else none

/-- A broker, and the network in front of it: what an operation of a submission and its answer do to its
state, and what it has executed. -/
structure Broker (I : Type) where
  State : Type
  performs : I → State → (op : Op) → op.Answer → State → Prop
  executions : State → Executions I

/-- What a broker is relied on for. -/
structure Broker.Reliable {I : Type} (broker : Broker I) : Prop where
  /-- It executes nothing but the write that it is sent. -/
  executes : ∀ {i state op x state'}, broker.performs i state op x state' →
    broker.executions state' = broker.executions state ∨
      ∃ request, op = .send request ∧ request.method ≠ str "GET" ∧
        broker.executions state' = broker.executions state ++ [(i, request)]
  /-- It executes nothing that it turns down. -/
  refuses : ∀ {i state request answer state'}, broker.performs i state (.send request) answer state' →
    Refusal answer → broker.executions state' = broker.executions state
  /-- It executes what it acknowledges. -/
  acknowledges : ∀ {i state op x state'}, broker.performs i state op x state' →
    Acknowledged ⟨op, x⟩ → broker.executions state' ≠ broker.executions state

/-- Submissions side by side at a broker. -/
abbrev Submitting {I : Type} (broker : Broker I) := Pool broker.State I Op Op.Answer Exc TradeStationTrade

/-- A step of a submission; nothing else happens. -/
abbrev SubmittingStep {I : Type} [DecidableEq I] (broker : Broker I) :
    Submitting broker → Pool.Label I Op Op.Answer → Submitting broker → Prop :=
  Pool.Step broker.performs fun _ _ => False

/-- What may have been executed of the events of one submission. -/
inductive Executed : Trace Op Op.Answer → List HTTPRequest → Prop
  | nil : Executed [] []
  | executes {tr : Trace Op Op.Answer} {executed : List HTTPRequest} (h : Executed tr executed)
    (request : HTTPRequest) (answer : Except Exc HTTPResponse)
    (hwrite : request.method ≠ str "GET") (hanswer : ¬Refusal answer) :
    Executed (tr ++ [⟨.send request, answer⟩]) (executed ++ [request])
  | passes {tr : Trace Op Op.Answer} {executed : List HTTPRequest} (h : Executed tr executed)
    (event : Event Op Op.Answer) (hevent : ¬Acknowledged event) : Executed (tr ++ [event]) executed

namespace Executed

variable {tr : Trace Op Op.Answer} {executed : List HTTPRequest}

theorem eq_nil (h : Executed tr executed) (hrefused : AllRefused tr) : executed = [] := by
  induction h with
  | nil => rfl
  | executes h request answer hwrite hanswer =>
    exact absurd (hrefused ⟨.send request, answer⟩ (by simp) hwrite) hanswer
  | passes h event hevent ih => exact ih (allRefused_append.1 hrefused).1

theorem ne_nil (h : Executed tr executed) {event : Event Op Op.Answer} (hevent : Acknowledged event)
    (hmem : event ∈ tr) : executed ≠ [] := by
  induction h with
  | nil => simp at hmem
  | executes h request answer hwrite hanswer => simp
  | passes h event' hevent' ih =>
    rcases List.mem_append.1 hmem with hmem | hmem
    · exact ih hmem
    · obtain rfl := List.mem_singleton.1 hmem
      exact absurd hevent hevent'

/-- Every write behind which another is sent was turned down, so that the last alone is executed. -/
theorem length_le_one (h : Executed tr executed)
    (hlast : ∀ before request answer after, tr = before ++ ⟨.send request, answer⟩ :: after →
      request.method ≠ str "GET" → AllRefused before) : executed.length ≤ 1 := by
  induction h with
  | nil => simp
  | executes h request answer hwrite hanswer =>
    rw [h.eq_nil (hlast _ request answer [] rfl hwrite)]
    simp
  | passes h event hevent ih =>
    refine ih fun before request answer after heq => hlast before request answer (after ++ [event]) ?_
    rw [heq]
    simp

theorem mem_sends (h : Executed tr executed) {request : HTTPRequest} (hmem : request ∈ executed) :
    ∃ answer, ⟨.send request, answer⟩ ∈ tr ∧ request.method ≠ str "GET" := by
  induction h with
  | nil => simp at hmem
  | executes h request' answer hwrite hanswer ih =>
    rcases List.mem_append.1 hmem with hmem | hmem
    · obtain ⟨answer', hsent, hwrite'⟩ := ih hmem
      exact ⟨answer', by simp [hsent], hwrite'⟩
    · obtain rfl := List.mem_singleton.1 hmem
      exact ⟨answer, by simp, hwrite⟩
  | passes h event hevent ih =>
    obtain ⟨answer, hsent, hwrite⟩ := ih hmem
    exact ⟨answer, by simp [hsent], hwrite⟩

end Executed

section
variable {I : Type} [DecidableEq I] {broker : Broker I} {s s' : Submitting broker}
  {label : Pool.Label I Op Op.Answer} {log : List (Pool.Label I Op Op.Answer)} {i : I}

theorem Executions.of_append_self (executions : Executions I) (request : HTTPRequest) :
    (executions ++ [(i, request)]).of i = executions.of i ++ [request] := by
  simp [Executions.of]

theorem Executions.of_append_other {j : I} (h : j ≠ i) (executions : Executions I)
    (request : HTTPRequest) : (executions ++ [(j, request)]).of i = executions.of i := by
  simp [Executions.of, h]

/-- A step keeps it that what is executed of a submission is executed of its events. -/
theorem executed_step (hbroker : broker.Reliable) (h : SubmittingStep broker s label s')
    {tr : Trace Op Op.Answer} (hs : Executed tr ((broker.executions s.shared).of i)) :
    Executed (tr ++ Pool.eventsOf i [label]) ((broker.executions s'.shared).of i) := by
  cases h with
  | drift hdrift => exact hdrift.elim
  | @perform shared j op k x htask hperforms =>
    by_cases hj : j = i
    · subst hj
      rw [Pool.eventsOf_self, Pool.eventsOf_nil]
      rcases hbroker.executes hperforms with hsame | ⟨request, rfl, hwrite, hexecutes⟩
      · rw [hsame]
        exact .passes hs _ fun hevent => hbroker.acknowledges hperforms hevent hsame
      · have hanswer : ¬Refusal x := fun hrefusal => by
          have hsame := hbroker.refuses hperforms hrefusal
          simp [hexecutes] at hsame
        rw [hexecutes, Executions.of_append_self]
        exact .executes hs request _ hwrite hanswer
    · rw [Pool.eventsOf_other hj, Pool.eventsOf_nil, List.append_nil]
      rcases hbroker.executes hperforms with hsame | ⟨request, rfl, hwrite, hexecutes⟩
      · rw [hsame]
        exact hs
      · rw [hexecutes, Executions.of_append_other hj]
        exact hs

/-- **What is executed of a submission is executed of its events**, in every run. -/
theorem executed_of_path (hbroker : broker.Reliable) (h : Path (SubmittingStep broker) s log s')
    (hstart : broker.executions s.shared = []) (i : I) :
    Executed (Pool.eventsOf i log) ((broker.executions s'.shared).of i) := by
  suffices hsuffices : ∀ {tr}, Executed tr ((broker.executions s.shared).of i) →
      Executed (tr ++ Pool.eventsOf i log) ((broker.executions s'.shared).of i) by
    have hnil : Executed [] ((broker.executions s.shared).of i) := by
      rw [hstart]
      exact .nil
    simpa using hsuffices hnil
  clear hstart
  intro tr htr
  induction h generalizing tr with
  | nil => simpa using htr
  | @cons _ _ _ label labels head _ ih =>
    have hlog : Pool.eventsOf i (label :: labels) =
        Pool.eventsOf i [label] ++ Pool.eventsOf i labels := by
      rw [← Pool.eventsOf_append]
      rfl
    rw [hlog, ← List.append_assoc]
    exact ih (executed_step hbroker head htr)

end

/-! ## A write behind a write -/

/-- A write is sent only where those before it were turned down. -/
def WritesLast (h : Trace Op Op.Answer) (op : Op) : Prop := op.IsWrite → AllRefused h

section
variable {h tr : Trace Op Op.Answer} {client : RestClient} {call : Call}

theorem obeys_quiet {α : Type} {p : Program α} (hp : Coro.Only (¬Op.IsWrite ·) p) :
    Coro.Obeys WritesLast h p :=
  hp.obeys (fun _ _ hquiet hwrite => absurd hwrite hquiet) h

theorem not_isWrite_now {op : Op} (h : op = .now) : ¬op.IsWrite := by
  subst h
  exact fun hwrite => hwrite

theorem Op.Quiet.not_isWrite {op : Op} (h : op.Quiet) : ¬op.IsWrite := by
  cases op with
  | send => exact h.elim
  | _ => exact fun hwrite => hwrite

theorem quiet_provider (method : ProviderMethod) :
    Coro.Only (¬Op.IsWrite ·) (Program.provider method) :=
  (Coro.only_ask fun hwrite => hwrite).bind fun answer => Coro.only_ofExcept _ answer

theorem quiet_raise (response : HTTPResponse) (wrap : Exc → Exc) :
    Coro.Only (¬Op.IsWrite ·) (do
      throw (wrap (← Program.apiError client.lib response)) : Program Json.Dict) :=
  ((quiet_apiError client.lib response).mono fun _ h => h.not_isWrite).bind fun _ => trivial

/-- One turn of the loop, given the turn behind the refresh. -/
theorem writesLast_turn (hcall : call.retrySafe = false) {attempt : ℕ} {refreshed : Bool}
    (hnext : refreshed = false → ∀ h, AllRefused h →
      Coro.Obeys WritesLast h (client.requestLoop call attempt true)) (hh : AllRefused h) :
    Coro.Obeys WritesLast h (client.requestLoop call attempt refreshed) := by
  rw [RestClient.requestLoop]
  refine (obeys_quiet (quiet_provider _)).bind fun token before hbefore => ?_
  have hclean : AllRefused (h ++ before) := hh.quiet ((quiet_provider _).of_runs hbefore)
  refine (Coro.obeys_ask fun _ => hclean).bind fun answer sent hsent => ?_
  obtain ⟨_, _, rfl, rfl, ⟨⟩⟩ := hsent
  cases answer with
  | error exc =>
    simp only [hcall, if_true]
    exact obeys_quiet (by split_ifs <;> trivial)
  | ok response =>
    simp only [hcall, Bool.false_eq_true, false_and, dite_false, true_and]
    split_ifs with h401
    · refine (obeys_quiet (quiet_provider _)).bind fun token' after hafter => ?_
      have hrefused : Refused ⟨.send (client.request call token), .ok response⟩ := by
        show 400 ≤ response.statusCode ∧ response.statusCode < 500 ∧ response.statusCode ≠ 408
        omega
      refine hnext h401.2 _ (AllRefused.quiet (allRefused_append.2 ⟨hclean, ?_⟩)
        ((quiet_provider _).of_runs hafter))
      intro event hevent _
      obtain rfl := List.mem_singleton.1 hevent
      exact hrefused
    · exact obeys_quiet (Coro.only_ofExcept _ _)
    · exact obeys_quiet (quiet_raise response _)
    · exact obeys_quiet (quiet_raise response id)

theorem writesLast_requestLoop (hcall : call.retrySafe = false) (attempt : ℕ) (refreshed : Bool)
    (hh : AllRefused h) : Coro.Obeys WritesLast h (client.requestLoop call attempt refreshed) := by
  have hrefreshed : ∀ h, AllRefused h →
      Coro.Obeys WritesLast h (client.requestLoop call attempt true) :=
    fun h hh => writesLast_turn hcall (by simp) hh
  cases refreshed with
  | true => exact hrefreshed h hh
  | false => exact writesLast_turn hcall (fun _ => hrefreshed) hh

/-! ## What an exception tells -/

theorem not_definite_ambiguous (cause : Exc) : ¬(RestClient.ambiguous call cause).Definite :=
  fun h => h

/-- The error made of a response is definite only for the statuses of a refusal. -/
theorem runs_apiError_definite {lib : Library} {response : HTTPResponse} {error : Exc}
    (h : Coro.Runs (Program.apiError lib response) tr (.ok error)) (herror : error.Definite) :
    400 ≤ response.statusCode ∧ response.statusCode < 500 := by
  unfold Program.apiError apiError at h
  simp only at h
  split_ifs at h with h401 h429
  · omega
  · omega
  · obtain ⟨-, ⟨⟩⟩ := h
    exact herror

/-- An `OverflowError` out of the mapping of a response tells nothing. -/
theorem apiError_raises_not_definite {lib : Library} {response : HTTPResponse} {exc : Exc}
    (h : Coro.Runs (Program.apiError lib response) tr (.error exc)) : ¬exc.Definite := by
  obtain ⟨-, ⟨-, he⟩ | ⟨-, error, he, -⟩⟩ := runs_apiError h <;> cases he
  exact fun h => h

theorem decode_error_not_definite (hcall : call.retrySafe = false) {response : HTTPResponse}
    {exc : Exc} (h : RestClient.decode call response = .error exc) : ¬exc.Definite := by
  unfold RestClient.decode at h
  simp only [hcall, Bool.false_eq_true, if_false] at h
  split at h
  · cases h
    exact not_definite_ambiguous _
  · cases h
  · cases h
    exact not_definite_ambiguous _

/-- A response that is no success is raised as a definite error only if it turned the write down. -/
theorem refusal_of_runs {response : HTTPResponse} {exc : Exc} (hexc : exc.Definite)
    (h : Coro.Runs (if response.statusCode ∈ ambiguousWriteStatuses then do
        throw (RestClient.ambiguous call (← Program.apiError client.lib response))
      else do throw (← Program.apiError client.lib response) : Program Json.Dict) tr
      (.error exc)) : Refusal (.ok response) := by
  split_ifs at h with hlisted
  · rcases Coro.runs_bind.1 h with ⟨_, herror, ⟨⟩⟩ | ⟨error, _, _, rfl, -, -, he⟩
    · exact absurd hexc (apiError_raises_not_definite herror)
    · cases he
      exact absurd hexc (not_definite_ambiguous error)
  · rcases Coro.runs_bind.1 h with ⟨_, herror, ⟨⟩⟩ | ⟨error, _, _, rfl, herror, -, he⟩
    · exact absurd hexc (apiError_raises_not_definite herror)
    · cases he
      obtain ⟨hle, hlt⟩ := runs_apiError_definite herror hexc
      refine ⟨hle, hlt, fun h408 => hlisted ?_⟩
      rw [h408]
      decide

/-- One turn of the loop, given the turn behind the refresh. -/
theorem allRefused_turn (hcall : call.retrySafe = false) {attempt : ℕ} {refreshed : Bool}
    {exc : Exc} (hexc : exc.Definite)
    (hnext : refreshed = false → ∀ tr,
      Coro.Runs (client.requestLoop call attempt true) tr (.error exc) → AllRefused tr)
    (h : Coro.Runs (client.requestLoop call attempt refreshed) tr (.error exc)) : AllRefused tr := by
  rw [RestClient.requestLoop, Program.getAccessToken, Program.runs_provider] at h
  rcases h with ⟨exc', rfl, -⟩ | ⟨token, rest, rfl, h⟩
  · exact allRefused_quiet (by simp [Op.IsWrite])
  rw [Program.runs_send] at h
  obtain ⟨answer, tail, rfl, h⟩ := h
  suffices hsuffices : Refusal answer ∧ AllRefused tail by
    refine List.forall_mem_cons.2 ⟨fun hwrite => hwrite.elim, List.forall_mem_cons.2 ⟨fun _ => ?_, ?_⟩⟩
    · exact hsuffices.1
    · exact hsuffices.2
  cases answer with
  | error exc' =>
    simp only [hcall, if_true] at h
    obtain ⟨rfl, hr⟩ := concludes_error client.lib h
    simp only [Concludes] at hr
    split_ifs at hr with htransport
    · cases hr
      exact absurd hexc (not_definite_ambiguous exc')
    · cases hr
      exact ⟨hexc, allRefused_quiet (by simp)⟩
  | ok response =>
    simp only [hcall, Bool.false_eq_true, false_and, dite_false, true_and] at h
    by_cases h401 : response.statusCode = 401 ∧ refreshed = false
    · rw [dif_pos h401, Program.forceRefreshAccessToken, Program.runs_provider] at h
      refine ⟨by show 400 ≤ response.statusCode ∧ response.statusCode < 500 ∧ _; omega, ?_⟩
      rcases h with ⟨exc', rfl, -⟩ | ⟨token', rest, rfl, h⟩
      · exact allRefused_quiet (by simp [Op.IsWrite])
      · exact List.forall_mem_cons.2 ⟨fun hwrite => hwrite.elim, hnext h401.2 rest h⟩
    · rw [dif_neg h401] at h
      obtain ⟨hnow, -⟩ := concludes_ok h
      refine ⟨?_, allRefused_quiet fun event hevent => not_isWrite_now (hnow event hevent)⟩
      by_cases hsuccess : isSuccess response = true
      · rw [if_pos hsuccess] at h
        exact absurd hexc (decode_error_not_definite hcall (Coro.runs_ofExcept.1 h).2.symm)
      · rw [if_neg hsuccess] at h
        exact refusal_of_runs hexc h

/-- **A write that raises a definite exception** was turned down whenever it was sent. -/
theorem allRefused_requestLoop (hcall : call.retrySafe = false) {attempt : ℕ} {refreshed : Bool}
    {exc : Exc} (hexc : exc.Definite)
    (h : Coro.Runs (client.requestLoop call attempt refreshed) tr (.error exc)) : AllRefused tr := by
  have hrefreshed : ∀ tr, Coro.Runs (client.requestLoop call attempt true) tr (.error exc) →
      AllRefused tr :=
    fun tr => allRefused_turn hcall hexc (by simp)
  cases refreshed with
  | true => exact hrefreshed tr h
  | false => exact allRefused_turn hcall hexc (fun _ => hrefreshed) h

end

/-! ## What a submission tells -/

/-- What a submission asks the broker for, and the payload that says it. -/
inductive Submission.Asks (lib : Library) : Submission → OrderWriteRequest → Json.Dict → Prop
  | order (order : OrderRequest) : Asks lib (.order order) (.order order) (orderPayload lib order)
  | group (group : GroupOrderRequest) :
    Asks lib (.group group) (.group group) (groupOrderPayload lib group)
  | replacement (accountId orderId : PyStr) (replacement : Replacement)
    (request : OrderReplaceRequest) (h : coerceReplaceRequest replacement = some request) :
    Asks lib (.replacement accountId orderId replacement) (.replacement request)
      (replaceOrderPayload lib request)

/-- The tail of a submission: a write of what it asks for, which is settled. -/
def IsTail (client : TradeStationClient) (submission : Submission) (p : Program TradeStationTrade) :
    Prop :=
  ∃ request payload call, submission.Asks client.lib request payload ∧ call.retrySafe = false ∧
    call.method ≠ str "GET" ∧ call.payload = some payload ∧
    p = client.settle request payload (client.rest.requestJson call)

theorem submit_through (client : TradeStationClient) (submission : Submission) :
    Coro.Through (¬Op.IsWrite ·) (IsTail client submission) (client.submit submission) := by
  have hpost : str "POST" ≠ str "GET" := by decide
  have hput : str "PUT" ≠ str "GET" := by decide
  cases submission with
  | order order =>
    refine .check fun _ _ => .check fun _ _ => .bind ?_ fun _ =>
      .here ⟨_, _, _, .order order, rfl, hpost, rfl, rfl⟩
    exact only_validateOrderForConfig (fun _ h => h) client.lib client.config order
  | group group =>
    refine .check fun _ _ => .check fun _ _ => .bind ?_ fun _ =>
      .here ⟨_, _, _, .group group, rfl, hpost, rfl, rfl⟩
    exact only_validateOrdersForConfig (fun _ h => h) client.lib client.config group.orders
  | replacement accountId orderId replacement =>
    refine .check fun _ _ => .check fun _ _ => .check fun _ _ => .bind ?_ fun _ =>
      .check fun id _ => .bind ?_ fun _ => ?_
    · exact only_assertCanSubmitOrders (fun _ h => h) client.lib client.config accountId
    · exact only_assertOrderBelongsToAccount client
        (only_getOrdersById client (only_get client.rest) _ _)
    · split
      · exact .raise _
      · next request hrequest =>
        exact .check fun _ _ => .check fun path _ =>
          .here ⟨_, _, _, .replacement _ _ _ request hrequest, rfl, hput, rfl, rfl⟩

theorem writesLast_settle {client : TradeStationClient} {submission : Submission}
    {h : Trace Op Op.Answer} {p : Program TradeStationTrade} (hp : IsTail client submission p)
    (hh : AllRefused h) : Coro.Obeys WritesLast h p := by
  obtain ⟨request, payload, call, -, hcall, -, -, rfl⟩ := hp
  have hwrite : Coro.Obeys WritesLast h (client.rest.requestJson call) :=
    writesLast_requestLoop hcall 1 false hh
  refine Coro.Obeys.bind (Coro.Obeys.tryCatch (hwrite.bind fun _ _ _ => trivial) ?_) ?_
  · intro exc tr _
    split_ifs <;> trivial
  · intro caught tr _
    cases caught with
    | error exc => trivial
    | ok response =>
      dsimp only
      split <;> trivial

/-- **A submission sends a write only behind refusals.** -/
theorem submit_writesLast (client : TradeStationClient) (submission : Submission) :
    Coro.Obeys WritesLast [] (client.submit submission) := by
  refine (submit_through client submission).obeys (H := AllRefused) ?_ ?_ ?_ ?_
  · exact fun h op hquiet hwrite => absurd hwrite hquiet
  · exact fun h op x hquiet hh => hh.quiet (by simpa using hquiet)
  · exact fun h p hp hh => writesLast_settle hp hh
  · simp [AllRefused]

/-- What the end of a submission tells of what was executed of it. -/
structure Agrees (executed : List HTTPRequest) (r : Except Exc TradeStationTrade) : Prop where
  /-- A trade that is not ambiguous was executed. -/
  settled : ∀ trade, r = .ok trade → trade.ambiguousError = none → executed ≠ []
  /-- What was executed is what the trade was made of. -/
  payload : ∀ trade, r = .ok trade → ∀ request ∈ executed, request.jsonBody = some trade.payload
  /-- A definite exception says that nothing was executed. -/
  refused : ∀ exc, r = .error exc → exc.Definite → executed = []

theorem agrees_settle {client : TradeStationClient} {submission : Submission}
    {p : Program TradeStationTrade} {before tr : Trace Op Op.Answer}
    {r : Except Exc TradeStationTrade} {executed : List HTTPRequest}
    (hp : IsTail client submission p) (hrun : Coro.Runs p tr r) (hquiet : ∀ event ∈ before, ¬event.op.IsWrite)
    (h : Executed (before ++ tr) executed) : Agrees executed r := by
  obtain ⟨request, payload, call, -, hcall, hmethod, hpayload, rfl⟩ := hp
  obtain ⟨r', hwrite, hsettled⟩ := runs_settle hrun
  have hbody : ∀ sent ∈ executed, sent.jsonBody = some payload := by
    intro sent hsent
    obtain ⟨answer, hmem, hput⟩ := h.mem_sends hsent
    rcases List.mem_append.1 hmem with hmem | hmem
    · exact absurd hput (hquiet _ hmem)
    · cases (only_requestJson client.rest call).of_runs hwrite _ hmem
      exact hpayload
  cases r' with
  | ok response =>
    obtain ⟨token, answer, hmem, hsuccess, hjson⟩ := answered_of_runs hwrite
    have hacknowledged : Acknowledged ⟨.send (client.rest.request call token), .ok answer⟩ :=
      ⟨hmethod, response, answer, rfl, hsuccess, hjson⟩
    have hne := h.ne_nil hacknowledged (List.mem_append_right _ hmem)
    simp only [Settled] at hsettled
    refine ⟨fun _ _ _ => hne, ?_, ?_⟩
    · rintro trade rfl
      split at hsettled
      · cases hsettled
      · cases hsettled
        exact hbody
    · rintro exc rfl hexc
      split at hsettled
      · cases hsettled
        exact hexc.elim
      · cases hsettled
  | error exc =>
    simp only [Settled] at hsettled
    split_ifs at hsettled with hambiguous
    · subst hsettled
      refine ⟨?_, ?_, by simp⟩
      · rintro trade ⟨⟩ hnone
        cases hnone
      · rintro trade ⟨⟩
        exact hbody
    · subst hsettled
      refine ⟨by simp, by simp, ?_⟩
      rintro _ ⟨⟩ hexc
      exact h.eq_nil (allRefused_append.2
        ⟨allRefused_quiet hquiet, allRefused_requestLoop hcall hexc hwrite⟩)

/-- **What a submission ends with** agrees with what was executed of its events. -/
theorem submit_reports {client : TradeStationClient} {submission : Submission}
    {tr : Trace Op Op.Answer} {r : Except Exc TradeStationTrade} {executed : List HTTPRequest}
    (hrun : Coro.Runs (client.submit submission) tr r) (h : Executed tr executed) :
    Agrees executed r := by
  rcases (submit_through client submission).runs hrun with
    ⟨⟨exc, rfl⟩, hquiet⟩ | ⟨before, tr', p, rfl, hquiet, hp, hrun⟩
  · exact ⟨by simp, by simp, fun _ _ _ => h.eq_nil (allRefused_quiet hquiet)⟩
  · exact agrees_settle hp hrun hquiet h

/-! ## Agreement -/

/-- **Submissions and broker agree.** In every state of every run, of each submission at most one write
is executed, and one is if any was acknowledged, whatever the submission makes of that; and where it has
ended, what it ended with agrees with that. -/
theorem submissions_agree {I : Type} [DecidableEq I] {broker : Broker I} (hbroker : broker.Reliable)
    {clients : I → TradeStationClient} {submissions : I → Submission} {s s' : Submitting broker}
    {log : List (Pool.Label I Op Op.Answer)} (hstart : broker.executions s.shared = [])
    (htask : ∀ i, s.task i = (clients i).submit (submissions i))
    (hrun : Path (SubmittingStep broker) s log s') (i : I) :
    ((broker.executions s'.shared).of i).length ≤ 1 ∧
      (∀ event ∈ Pool.eventsOf i log, Acknowledged event → (broker.executions s'.shared).of i ≠ []) ∧
      ∀ r, (s'.task i).Ended r → Agrees ((broker.executions s'.shared).of i) r := by
  have hexecuted := executed_of_path hbroker hrun hstart i
  have hafter := Pool.after_of_path hrun i
  rw [htask i] at hafter
  refine ⟨hexecuted.length_le_one ?_, fun event hmem hevent => hexecuted.ne_nil hevent hmem,
    fun r hended => submit_reports (hafter.runs hended) hexecuted⟩
  intro before request answer after heq hwrite
  obtain ⟨log₁, log₂, rfl, hlog₁, -⟩ := Pool.eventsOf_split heq
  obtain ⟨mid, mid', ⟨rest, -, hbefore, hstep, -⟩, -⟩ := Pool.exists_at hrun
  have hmid := Pool.after_of_path hbefore i
  rw [htask i, hlog₁] at hmid
  cases hstep with
  | perform _ x hawait _ =>
    rw [hawait] at hmid
    exact (submit_writesLast (clients i) (submissions i)).of_after hmid hwrite

/-- What a broker may do that keeps a list of what it executes. -/
inductive ListingStep {I : Type} (i : I) (executions : Executions I) :
    (op : Op) → op.Answer → Executions I → Prop
  | executes (request : HTTPRequest) (answer : Except Exc HTTPResponse)
    (hwrite : request.method ≠ str "GET") (h : ¬Refusal answer) :
    ListingStep i executions (.send request) answer (executions ++ [(i, request)])
  | passes (op : Op) (x : op.Answer) (h : ¬Acknowledged ⟨op, x⟩) :
    ListingStep i executions op x executions

/-- Such a broker. -/
def listingBroker (I : Type) : Broker I := ⟨Executions I, ListingStep, id⟩

theorem listingBroker_reliable {I : Type} : (listingBroker I).Reliable where
  executes h := by
    cases h with
    | executes request answer hwrite _ => exact .inr ⟨request, rfl, hwrite, rfl⟩
    | passes => exact .inl rfl
  refuses h hrefusal := by
    cases h with
    | executes _ _ _ hanswer => exact absurd hrefusal hanswer
    | passes => rfl
  acknowledges {i state _ _ _} h hevent := by
    have hlonger : ∀ (executions : Executions I) (request : HTTPRequest),
        executions ++ [(i, request)] ≠ executions := by simp
    cases h with
    | executes request => exact hlonger state request
    | passes _ _ hpasses => exact absurd hevent hpasses

/-- One order that is about to be placed. -/
def placing : Submitting (listingBroker Unit) where
  shared := []
  task _ := simTradeClient.submit (.order (.mk buyFields []))

/-- The broker executes it and acknowledges it. -/
theorem submissions_agree_buy : ∃ s' : Submitting (listingBroker Unit), ∃ r, (s'.task ()).Ended r ∧
    (Executions.of () s'.shared).length = 1 ∧ Agrees (Executions.of () s'.shared) r := by
  have hbody : (⟨200, [], ascii "\x7b\x7d"⟩ : HTTPResponse).json = some (.obj []) := by
    rfl
  have hsent : Path (fun w (event : Event Op Op.Answer) w' => ListingStep () w event.op event.answer w')
      [] (answered (ascii "\x7b\x7d")) [((), simClient.request buyCall (str "T"))] := by
    refine .cons (.passes _ _ fun h => h) (.single (.executes _ _ ?_ ?_))
    · show str "POST" ≠ str "GET"
      decide
    · show ¬((400 : ℤ) ≤ 200 ∧ (200 : ℤ) < 500 ∧ (200 : ℤ) ≠ 408)
      omega
  obtain ⟨r, hrun⟩ : ∃ r, Coro.Runs (placing.task ()) (answered (ascii "\x7b\x7d")) r :=
    ⟨_, runs_answered hbody⟩
  have halone : ∃ q : Program TradeStationTrade, q.Ended r ∧ Path (SubmittingStep (listingBroker Unit)) placing _
      ⟨_, Function.update placing.task () q⟩ :=
    Pool.path_of_runs hrun hsent
  obtain ⟨q, hended, hpath⟩ := halone
  have htask : ∀ i : Unit, placing.task i =
      TradeStationClient.submit ((fun _ => simTradeClient) i)
        ((fun _ => .order (.mk buyFields [])) i) :=
    fun _ => rfl
  have hended' : (Function.update placing.task () q ()).Ended r := by
    rw [Function.update_self]
    exact hended
  obtain ⟨hone, hsome, hagrees⟩ := submissions_agree listingBroker_reliable rfl htask hpath ()
  exact ⟨⟨_, Function.update placing.task () q⟩, r, hended', rfl, hagrees r hended'⟩

end TradeStation
