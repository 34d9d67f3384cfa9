import TradeStation.Redaction.Values
import TradeStation.Rest.Reads

/-!
# What an exhausted read says

`RetryExhausted` is raised with `str(redact(exc))`. An exception is no mapping, no string and no
sequence, so that `redact` hands it back, and its text is not redacted after all.

* `runs_exhausted`: the message is what `redact` makes of the last transport error.
* `retryExhausted_redacted_iff`: when that is a redacted text.
-/

namespace TradeStation

open Python Foundations Pattern

/-- `str(redact(exc))`. -/
def redactedErrorText (lib : Library) (exc : Exc) : PyStr :=
  match redactValue lib id (.scalar exc : Value PyStr Exc) with
  | .scalar exc => transportErrorText lib exc
  | _ => []

/-- `redact` hands an exception back. -/
theorem redactedErrorText_eq (lib : Library) (exc : Exc) :
    redactedErrorText lib exc = transportErrorText lib exc := rfl

/-- **The message is what `redact` makes of the last transport error.** -/
theorem runs_exhausted {client : RestClient} {call : Call} (hcall : call.retrySafe = true)
    {attempt : ℕ} {refreshed : Bool} {tr : Trace Op Op.Answer} {message : PyStr}
    (h : Coro.Runs (client.requestLoop call attempt refreshed) tr
      (.error (.retryExhausted message))) (hregular : RegularRun tr) :
    ∃ before exc, outcomes tr = before ++ [.error exc] ∧
      message = redactedErrorText client.lib exc := by
  -- the induction is on the length of the trace, which every turn of the loop uses some of
  induction hn : tr.length using Nat.strong_induction_on generalizing tr attempt refreshed with
  | _ n ih =>
  subst hn
  rw [RestClient.requestLoop, Program.getAccessToken, Program.runs_provider] at h
  rcases h with ⟨exc, rfl, -⟩ | ⟨token, rest, rfl, h⟩
  · obtain ⟨token, htoken⟩ := hregular _ List.mem_cons_self
    cases htoken
  rw [Program.runs_send] at h
  obtain ⟨outcome, tail, rfl, h⟩ := h
  have htail : RegularRun tail := fun event hevent =>
    hregular event (List.mem_cons_of_mem _ (List.mem_cons_of_mem _ hevent))
  have hretried : ∀ {retryAfter : Option PyStr},
      Coro.Runs (client.sleep attempt retryAfter >>= fun _ =>
        client.requestLoop call (attempt + 1) refreshed) tail (.error (.retryExhausted message)) →
      ∃ before exc, outcomes tail = before ++ [.error exc] ∧
        message = redactedErrorText client.lib exc := by
    intro retryAfter h
    obtain ⟨draws, hdraws, ⟨-, hoverflow, -⟩ | ⟨delay, rest, rfl, -, h⟩⟩ := runs_retry h htail
    · cases hoverflow
    · obtain ⟨before, exc, hlast, hmessage⟩ := ih rest.length (by simp; omega) h
        (fun event hevent => htail event (by simp [hevent])) rfl
      exact ⟨before, exc, by simp [outcomes_draws hdraws, hlast], hmessage⟩
  cases outcome with
  | error exc =>
    have htransport : exc.isTransportError = true :=
      hregular ⟨.send _, .error exc⟩ (List.mem_cons_of_mem _ List.mem_cons_self)
    simp only [htransport, hcall, Bool.true_eq_false, if_false] at h
    split_ifs at h with hlast
    · obtain ⟨rfl, hraised⟩ := h
      cases hraised
      exact ⟨[], exc, rfl, (redactedErrorText_eq client.lib exc).symm⟩
    · obtain ⟨before, exc', hlast, hmessage⟩ := hretried h
      exact ⟨.error exc :: before, exc', by simp [hlast], hmessage⟩
  | ok response =>
    simp only [hcall, Bool.true_eq_false, false_and, if_false, true_and] at h
    split_ifs at h with h401 hsuccess hretry
    · rw [Program.forceRefreshAccessToken, Program.runs_provider] at h
      rcases h with ⟨exc, rfl, -⟩ | ⟨token', rest, rfl, h⟩
      · obtain ⟨token, htoken⟩ := htail _ List.mem_cons_self
        cases htoken
      obtain ⟨before, exc, hlast, hmessage⟩ := ih rest.length (by simp; omega) h
        (fun event hevent => htail event (List.mem_cons_of_mem _ hevent)) rfl
      exact ⟨.ok response :: before, exc, by simp [hlast], hmessage⟩
    · rw [Coro.runs_ofExcept] at h
      have hend : ReadEnd client attempt (.ok response) (RestClient.decode call response) :=
        readEnd_decode hcall attempt hsuccess
      rcases hend with ⟨decoded, -, hdecoded⟩ | ⟨-, exc, hexc, hraised⟩
      · rw [hdecoded] at h
        cases h.2
      · rw [hraised] at h
        cases h.2
        cases hexc
    · obtain ⟨before, exc, hlast, hmessage⟩ := hretried h
      exact ⟨.ok response :: before, exc, by simp [hlast], hmessage⟩
    · obtain ⟨-, ⟨-, hraised⟩ | ⟨-, exc, hexc, hraised⟩⟩ := runs_throw_apiError h
      · cases hraised
      · cases hraised
        cases hexc

/-- **The message is a redacted text** exactly if the text of the last transport error was clean to
begin with. -/
theorem retryExhausted_redacted_iff (client : RestClient) (read : SafeRead)
    {tr : Trace Op Op.Answer} {message : PyStr} {before : List (Except Exc HTTPResponse)}
    {exc : Exc} (hrun : Coro.Runs (read.program client) tr (.error (.retryExhausted message)))
    (hregular : RegularRun tr) (hlast : outcomes tr = before ++ [.error exc]) :
    message = redactText client.lib (transportErrorText client.lib exc) ↔
      Clean client.lib (transportErrorText client.lib exc) := by
  obtain ⟨call, hcall, hprogram⟩ := read.program_eq client
  rw [hprogram] at hrun
  obtain ⟨before', exc', hlast', rfl⟩ := runs_exhausted hcall hrun hregular
  obtain ⟨-, hexc⟩ := List.append_inj' (hlast.symm.trans hlast') rfl
  cases hexc
  rw [redactedErrorText_eq, eq_comm]
  exact redactText_eq_self_iff client.lib _

/-- A client that tries once. -/
def hastyClient : RestClient := { simClient with retryPolicy := { maxAttempts := 1 } }

/-- The read of a gateway that fails with a text. -/
theorem runs_hasty (text : PyStr) :
    ∃ tr, Coro.Runs ((SafeRead.get (str "/brokerage/accounts")).program hastyClient) tr
        (.error (.retryExhausted text)) ∧
      RegularRun tr ∧ outcomes tr = [] ++ [.error (.transport text)] := by
  set call : Call := { method := str "GET", path := str "/brokerage/accounts", retrySafe := true }
  refine ⟨[⟨.provider .getAccessToken, .ok (str "T")⟩,
    ⟨.send (hastyClient.request call (str "T")), .error (.transport text)⟩], ?_, ?_, rfl⟩
  · change Coro.Runs (hastyClient.requestLoop call 1 false) _ _
    rw [RestClient.requestLoop, Program.getAccessToken, Program.runs_provider]
    exact .inr ⟨str "T", _, rfl, Program.runs_send.2 ⟨_, [], rfl, rfl, rfl⟩⟩
  · intro event hevent
    rcases List.mem_cons.1 hevent with rfl | hevent
    · exact ⟨_, rfl⟩
    · rw [List.mem_singleton.1 hevent]
      rfl

theorem retryExhausted_redacted_iff_reset :
    ∃ tr before, Coro.Runs ((SafeRead.get (str "/brokerage/accounts")).program hastyClient) tr
        (.error (.retryExhausted (str "reset"))) ∧
      outcomes tr = before ++ [.error (.transport (str "reset"))] ∧
      (str "reset" = redactText hastyClient.lib (str "reset") ↔
        Clean hastyClient.lib (str "reset")) := by
  obtain ⟨tr, hrun, hregular, hlast⟩ := runs_hasty (str "reset")
  exact ⟨tr, [], hrun, hlast, retryExhausted_redacted_iff hastyClient _ hrun hregular hlast⟩

/-- A bearer token in the text of the error is a bearer token in the message. -/
theorem retryExhausted_leaks :
    ¬∀ (client : RestClient) (read : SafeRead) (tr : Trace Op Op.Answer) (message : PyStr)
      (before : List (Except Exc HTTPResponse)) (exc : Exc),
      Coro.Runs (read.program client) tr (.error (.retryExhausted message)) → RegularRun tr →
      outcomes tr = before ++ [.error exc] →
      message = redactText client.lib (transportErrorText client.lib exc) := by
  intro h
  obtain ⟨tr, hrun, hregular, hlast⟩ := runs_hasty (str "proxy: Bearer s3cret")
  have hmessage := h _ _ _ _ _ _ hrun hregular hlast
  exact absurd hmessage (by decide)

end TradeStation
