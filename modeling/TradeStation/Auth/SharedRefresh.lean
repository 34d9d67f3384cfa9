import TradeStation.Auth.Rotation
import TradeStation.Auth.Stages

/-!
# Concurrent callers share one refresh

Any number of `get_access_token` calls of one manager, in any order of their steps, with a clock that
does not go back.

* `Guarded`: the lock keeps the others out, and what a call under it has in hand is what is stored.
  `Renewed`: behind a swap, the token stays and no call asks for another before it is due.
  `OnCourse`: a call that found an older token is on its way to that one.
* `getAccessToken_shares` carries them along every run.
-/

namespace TradeStation

open Python Foundations

/-! ## Due tokens -/

/-- The token expires within the margin of a time. -/
def OAuthToken.DueBy (token : OAuthToken) (clock : ℤ) : Prop :=
  token.expiresAt.aware = true ∧ token.expiresAt.instant ≤ clock + refreshMargin

section
variable {token other : OAuthToken} {clock clock' : ℤ}

theorem OAuthToken.DueBy.mono (h : token.DueBy clock) (hclock : clock ≤ clock') :
    token.DueBy clock' := by
  refine ⟨h.1, ?_⟩
  have := h.2
  omega

theorem instant_utc (t : ℤ) : (Datetime.utc t).instant = t := by
  simp [Datetime.utc, Datetime.instant, Datetime.utcoffset]

/-- What a look at a time in UTC says. -/
theorem expiresSoon_utc {soon : Bool} (h : token.expiresSoon (.utc clock) = .ok soon) :
    soon = true ↔ token.DueBy clock := by
  unfold OAuthToken.expiresSoon at h
  split at h
  · cases h
  · next limit hlimit =>
    have hlimit' : limit = .utc (clock + refreshMargin) := by
      unfold Datetime.add at hlimit
      split_ifs at hlimit
      exact (Option.some.inj hlimit).symm
    subst hlimit'
    split_ifs at h with haware
    obtain rfl := Except.ok.inj h
    rw [decide_eq_true_iff, instant_utc]
    exact ⟨fun hle => ⟨haware, hle⟩, fun hdue => hdue.2⟩

/-- A token that is due is found to be, wherever another can be compared. -/
theorem OAuthToken.DueBy.soon {soon : Bool} (h : token.DueBy clock)
    (hother : other.expiresSoon (.utc clock) = .ok soon) :
    token.expiresSoon (.utc clock) = .ok true := by
  unfold OAuthToken.expiresSoon at hother ⊢
  cases hlimit : (Datetime.utc clock).add refreshMargin with
  | none =>
    rw [hlimit] at hother
    cases hother
  | some limit =>
    have hlimit' : limit = .utc (clock + refreshMargin) := by
      unfold Datetime.add at hlimit
      split_ifs at hlimit
      exact (Option.some.inj hlimit).symm
    subst hlimit'
    have haware : token.expiresAt.aware = (Datetime.utc (clock + refreshMargin)).aware := h.1
    simp only [if_pos haware, instant_utc, h.2, decide_true]

end

/-- A token without a refresh token is read only where an empty one was sent. -/
theorem sent_of_fromTokenResponse {lib : Library} {redactText : PyStr → PyStr}
    {payload : Json.Dict} {sent : PyStr} {issuedAt : Datetime} {token : OAuthToken}
    (h : OAuthToken.fromTokenResponse lib redactText payload (some sent) issuedAt = .ok token)
    (hnone : token.refreshToken = none) : sent = [] := by
  unfold OAuthToken.fromTokenResponse at h
  split at h
  · simp only at h
    split at h
    · cases h
    · obtain rfl := Except.ok.inj h
      have hkept : (some sent).filter (· ≠ []) = none := by
        simp only [refreshTokenText] at hnone
        split at hnone
        · cases hnone
        · exact hnone
      simpa using hkept
  · cases h

/-! ## What the lock guards -/

/-- What a call under the lock has in hand is what is stored. -/
def Stage.Backed (store : MemoryTokenStore.Stored) : Stage → Prop
  | .holding current sent => store = some current ∧ current.refreshToken = some sent
  | .sending sent => store.bind OAuthToken.refreshToken = some sent
  | .reading sent _ => store.bind OAuthToken.refreshToken = some sent
  | .swapping sent replacement =>
    store.bind OAuthToken.refreshToken = some sent ∧
      (replacement.refreshToken = none → sent = [])
  | .reloading => False
  | _ => True

theorem Stage.Backed.of_outside {store : MemoryTokenStore.Stored} {stage : Stage}
    (h : ¬stage.Inside) : stage.Backed store := by
  cases stage <;> first | trivial | exact absurd trivial h

variable {I : Type} [DecidableEq I] {manager : OAuthManager} {token : OAuthToken}

/-- The lock keeps the others out. -/
structure Guarded (w : TokenWorld Unit) (t : I → Stage) : Prop where
  mutex : Pool.Mutex Stage.Inside (w.locked ()) t
  backed : ∀ i, (t i).Backed w.store

section
variable {w w' : TokenWorld Unit} {t : I → Stage} {i : I} {op : TokenOp} {stage : Stage}

omit [DecidableEq I] in
theorem Guarded.drift (h : Guarded w t) (hdrift : Drifts (· ≤ ·) w w') : Guarded w' t := by
  obtain ⟨clock, -, rfl⟩ := hdrift
  exact ⟨h.mutex, h.backed⟩

/-- A move backs what the call has in hand by what is stored then. -/
theorem Moves.backed {stage stage' : Stage} (h : Moves manager w stage op stage' w')
    (hbacked : stage.Backed w.store) : stage'.Backed w'.store := by
  cases h with
  | holds hstore hsent => exact ⟨hstore, hsent⟩
  | sends =>
    obtain ⟨hstore, hsent⟩ := hbacked
    show w.store.bind _ = _
    rw [hstore]
    exact hsent
  | answered => exact hbacked
  | reads hread => exact ⟨hbacked, sent_of_fromTokenResponse hread⟩
  | overtaken hstore => exact hstore hbacked.1
  | _ => trivial

/-- Only a call under the lock changes the store. -/
theorem Moves.store {stage stage' : Stage} (h : Moves manager w stage op stage' w')
    (houtside : ¬stage.Inside) : w'.store = w.store := by
  cases h <;> first | rfl | exact absurd trivial houtside

theorem Guarded.moves (h : Guarded w t) (hmove : Moves manager w (t i) op stage w') :
    Guarded w' (Function.update t i stage) := by
  have hbacked : ∀ j, (Function.update t i stage j).Backed w'.store := by
    rw [Function.forall_update_iff t fun _ (x : Stage) => x.Backed w'.store]
    refine ⟨hmove.backed (h.backed i), fun j hj => ?_⟩
    by_cases hinside : (t i).Inside
    · exact .of_outside fun hj' => hj (h.mutex.alone j i hj' hinside)
    · rw [hmove.store hinside]
      exact h.backed j
  refine ⟨?_, hbacked⟩
  generalize hstage : t i = before at hmove
  cases hmove with
  | enters hfree =>
    have hmutex := h.mutex
    rw [hfree] at hmutex
    have hinside : Stage.entered.Inside := trivial
    simpa using hmutex.enter hinside
  | leaves r => simpa using h.mutex.leave (by rw [hstage]; trivial) id
  | _ => exact h.mutex.keep (by rw [hstage]; exact Iff.rfl)

/-! ## What a swap settles -/

/-- The token is stored and no call asks for another, unless it is due. -/
def Renewed (token : OAuthToken) (w : TokenWorld Unit) (t : I → Stage) : Prop :=
  token.DueBy w.clock ∨ w.store = some token ∧ ∀ i, ¬(t i).Exchanging

/-- A call that is to return the token. -/
def Stage.OnCourse (token : OAuthToken) (clock : ℤ) : Stage → Prop
  | .seen found => found.DueBy clock ∧ token.refreshToken ≠ none
  | .waiting | .entered => token.refreshToken ≠ none
  | .holding current _ => current = token
  | .leaving r => r = .ok token
  | .ended r => r = .ok token.accessToken
  | _ => False

omit [DecidableEq I] in
theorem Renewed.drift (h : Renewed token w t) (hdrift : Drifts (· ≤ ·) w w') :
    Renewed token w' t := by
  obtain ⟨clock, hclock, rfl⟩ := hdrift
  rcases h with hdue | hrenewed
  · exact .inl (hdue.mono hclock)
  · exact .inr hrenewed

theorem Stage.OnCourse.mono {stage : Stage} {clock clock' : ℤ} (h : stage.OnCourse token clock)
    (hclock : clock ≤ clock') : stage.OnCourse token clock' := by
  cases stage with
  | seen found => exact ⟨h.1.mono hclock, h.2⟩
  | _ => exact h

theorem Moves.clock {stage stage' : Stage} (h : Moves manager w stage op stage' w') :
    w'.clock = w.clock := by
  cases h <;> rfl

/-- Only a call that finds the token due asks for another. -/
theorem Renewed.moves (h : Renewed token w t) (hguarded : Guarded w t)
    (hmove : Moves manager w (t i) op stage w') : Renewed token w' (Function.update t i stage) := by
  rcases h with hdue | ⟨hstore, hquiet⟩
  · rw [← hmove.clock] at hdue
    exact .inl hdue
  have hmoved : token.DueBy w.clock ∨ w'.store = some token ∧ ¬stage.Exchanging := by
    have hbacked := hguarded.backed i
    have hi := hquiet i
    generalize t i = before at hmove hbacked hi
    cases hmove with
    | sends hsoon =>
      obtain rfl := Option.some.inj (hstore.symm.trans hbacked.1)
      exact .inl ((expiresSoon_utc hsoon).1 rfl)
    | answered | reads | swaps | overtaken => exact absurd trivial hi
    | _ => exact .inr ⟨hstore, id⟩
  rcases hmoved with hdue | ⟨hstore', hstage⟩
  · rw [← hmove.clock] at hdue
    exact .inl hdue
  · refine .inr ⟨hstore', ?_⟩
    rw [Function.forall_update_iff t fun _ (x : Stage) => ¬x.Exchanging]
    exact ⟨hstage, fun j _ => hquiet j⟩

omit [DecidableEq I] in
/-- A call goes on to the token as long as that is not due. -/
theorem Moves.onCourse {stage stage' : Stage} (hmove : Moves manager w stage op stage' w')
    (h : stage.OnCourse token w.clock) (hrenewed : Renewed token w t)
    (hfresh : op ≠ .release → token.expiresSoon w.now = .ok false) :
    stage'.OnCourse token w'.clock := by
  have hstored : op ≠ .release → w.store = some token := by
    intro hop
    rcases hrenewed with hdue | ⟨hstore, -⟩
    · cases (expiresSoon_utc (hfresh hop)).2 hdue
    · exact hstore
  cases hmove with
  | unseen hsoon => cases hsoon.symm.trans (h.1.soon (hfresh nofun))
  | fresh hsoon => cases hsoon.symm.trans (h.1.soon (hfresh nofun))
  | stale => exact h.2
  | enters => exact h
  | missing hstore =>
    rw [hstored nofun] at hstore
    exact absurd hstore h
  | holds hstore => exact Option.some.inj (hstore.symm.trans (hstored nofun))
  | unlooked hsoon =>
    obtain rfl := h
    cases hsoon.symm.trans (hfresh nofun)
  | keeps =>
    obtain rfl := h
    rfl
  | sends hsoon =>
    obtain rfl := h
    cases hsoon.symm.trans (hfresh nofun)
  | leaves =>
    obtain rfl := h
    rfl
  | _ => exact h.elim

end

/-! ## Where a call is -/

section
variable {stage : Stage}

theorem sending_of_await {request : HTTPRequest} {k : Except Exc HTTPResponse → TokenProgram PyStr}
    (h : stage.program manager = .await (.send request) k) : ∃ sent, stage = .sending sent := by
  cases stage with
  | sending sent => exact ⟨sent, rfl⟩
  | leaving r =>
    rw [Stage.program, Stage.inLock_ofExcept] at h
    cases h
  | ended r => cases r <;> cases h
  | _ => cases h

theorem swapping_of_await {expected : Option PyStr} {token : OAuthToken}
    {k : Bool → TokenProgram PyStr}
    (h : stage.program manager = .await (.compareAndSwapRefreshToken expected token) k) :
    ∃ sent, expected = some sent ∧ stage = .swapping sent token := by
  cases stage with
  | swapping sent replacement =>
    cases h
    exact ⟨sent, rfl, rfl⟩
  | leaving r =>
    rw [Stage.program, Stage.inLock_ofExcept] at h
    cases h
  | ended r => cases r <;> cases h
  | _ => cases h

theorem ended_program (manager : OAuthManager) (r : Except Exc PyStr) :
    ((Stage.ended r).program manager).Ended r := by
  cases r <;> rfl

theorem ended_of_program {r : Except Exc PyStr} (h : (stage.program manager).Ended r) :
    stage = .ended r := by
  cases stage with
  | leaving r =>
    rw [Stage.program, Stage.inLock_ofExcept] at h
    exact h.elim
  | ended r' => rw [(ended_program manager r').unique h]
  | _ => exact h.elim

/-- A call that has loaded a token. -/
def Stage.Past (found : OAuthToken) : Stage → Prop
  | .start => False
  | .seen token => token = found
  | _ => True

theorem Stage.Past.next {found : OAuthToken} (h : stage.Past found)
    (event : Event TokenOp TokenOp.Answer) : (stage.next manager event).Past found := by
  fun_cases Stage.next manager stage event <;> trivial

omit [DecidableEq I] in
/-- A call that is neither at its end nor waiting for the lock can go on. -/
theorem exists_performs (manager : OAuthManager) (w : TokenWorld Unit) (i : I)
    (hended : ∀ r, stage ≠ .ended r) (hwaiting : stage = .waiting → w.locked () = false) :
    ∃ op k x w', stage.program manager = .await op k ∧ Performs (fun _ : I => ()) i w op x w' := by
  cases stage with
  | start => exact ⟨.load, _, w.store, w, rfl, .load _ rfl⟩
  | seen token => exact ⟨.now, _, w.now, w, rfl, .now _ rfl⟩
  | waiting => exact ⟨.acquire, _, (), _, rfl, .acquire (hwaiting rfl)⟩
  | entered => exact ⟨.load, _, w.store, w, rfl, .load _ rfl⟩
  | holding current sent => exact ⟨.now, _, w.now, w, rfl, .now _ rfl⟩
  | sending sent =>
    exact ⟨.send (manager.refreshRequest sent), _, .error .overflow, w, rfl, .send _ _⟩
  | reading sent payload => exact ⟨.now, _, w.now, w, rfl, .now _ rfl⟩
  | swapping sent replacement =>
    exact ⟨.compareAndSwapRefreshToken (some sent) replacement, _, _, _, rfl, .swap _ _ _ _ rfl⟩
  | reloading => exact ⟨.load, _, w.store, w, rfl, .load _ rfl⟩
  | leaving r => exact ⟨.release, _, (), _, Stage.inLock_ofExcept r, .release⟩
  | ended r => exact absurd rfl (hended r)

end

/-! ## Concurrent calls -/

/-- Steps of calls of one manager, with a clock that does not go back. -/
abbrev AccessStep :
    TokenPool Unit I PyStr → Pool.Label I TokenOp TokenOp.Answer → TokenPool Unit I PyStr → Prop :=
  TokenStep (fun _ => ()) (· ≤ ·)

/-- What a call performs, where the call `j` resumes only while the token does not expire soon.
Giving the lock back is not to resume: nothing is awaited. -/
def PerformsInTime (token : OAuthToken) (j i : I) (w : TokenWorld Unit) (op : TokenOp)
    (x : op.Answer) (w' : TokenWorld Unit) : Prop :=
  Performs (fun _ : I => ()) i w op x w' ∧
    (i = j → op ≠ .release → token.expiresSoon w.now = .ok false)

/-- Steps among which the call `j` resumes in time. -/
abbrev InTimeStep (token : OAuthToken) (j : I) :
    TokenPool Unit I PyStr → Pool.Label I TokenOp TokenOp.Answer → TokenPool Unit I PyStr → Prop :=
  Pool.Step (PerformsInTime token j) (Drifts (· ≤ ·))

omit [DecidableEq I] in
/-- A call has sent its refresh request, and the answer is not there. -/
def InFlight (s : TokenPool Unit I PyStr) (i : I) : Prop :=
  ∃ request k, s.task i = .await (.send request) k

/-- A call that loaded a token that is due by now is still suspended. -/
structure FoundDue (s : TokenPool Unit I PyStr) (log : TokenLog I) (j : I) : Prop where
  found : ∃ found rest, Pool.eventsOf j log = ⟨.load, some found⟩ :: rest ∧
    found.DueBy s.shared.clock
  suspended : ∀ r, ¬(s.task j).Ended r

/-- A swap of a call puts the token in. -/
abbrev swapped (i : I) (expected : Option PyStr) (token : OAuthToken) :
    Pool.Label I TokenOp TokenOp.Answer :=
  some (i, ⟨.compareAndSwapRefreshToken expected token, true⟩)

/-- What concurrent calls keep that begin in a pool. -/
structure SharesRefresh (s : TokenPool Unit I PyStr) : Prop where
  /-- At most one refresh request is in flight. -/
  single : ∀ {log s'}, Path AccessStep s log s' → ∀ i j, InFlight s' i → InFlight s' j → i = j
  /-- A token that a refresh stored stays, and no request is in flight, until it is due. -/
  lasting : ∀ {log s₁ i expected token after s'},
    Path AccessStep s (log ++ [swapped i expected token]) s₁ → Path AccessStep s₁ after s' →
      ¬token.DueBy s'.shared.clock → s'.shared.store = some token ∧ ∀ j, ¬InFlight s' j
  /-- A call that found a token due and was still suspended then returns the new one, if it resumes
  in time; a call other than the one that refreshed, if there is a refresh token with it. -/
  returned : ∀ {log s₁ i expected token j after s' r},
    Path AccessStep s (log ++ [swapped i expected token]) s₁ →
      FoundDue s₁ (log ++ [swapped i expected token]) j → Path (InTimeStep token j) s₁ after s' →
        (s'.task j).Ended r → j = i ∨ token.refreshToken ≠ none → r = .ok token.accessToken
  /-- There is one, unless the refresh token that was sent is empty. -/
  renewable : ∀ {log s₁ i expected token},
    Path AccessStep s (log ++ [swapped i expected token]) s₁ →
      token.refreshToken = none → expected = some []
  /-- Where no call can go on, all have ended. -/
  live : ∀ {log s'}, Path AccessStep s log s' →
    (∀ i event s'', ¬AccessStep s' (some (i, event)) s'') → ∀ i, ∃ r, (s'.task i).Ended r

section
variable {s s₁ s' : TokenPool Unit I PyStr} {log : TokenLog I} {t : I → Stage}

/-- The calls are in these stages. -/
def InStages (manager : OAuthManager) (s : TokenPool Unit I PyStr) (t : I → Stage) : Prop :=
  ∀ i, s.task i = (accessMachine manager).program (t i)

omit [DecidableEq I] in
theorem InStages.exchanging (ht : InStages manager s t) {i : I} (h : InFlight s i) :
    (t i).Exchanging := by
  obtain ⟨request, k, hawait⟩ := h
  obtain ⟨sent, hstage⟩ := sending_of_await ((ht i).symm.trans hawait)
  rw [hstage]
  trivial

omit [DecidableEq I] in
theorem InStages.ended (ht : InStages manager s t) {i : I} {r : Except Exc PyStr}
    (h : t i = .ended r) : (s.task i).Ended r := by
  rw [ht i, h]
  exact ended_program manager r

/-- **The lock keeps the others out along every run.** -/
theorem guarded_of_path (ht : InStages manager s t) (hguarded : Guarded s.shared t)
    (h : Path AccessStep s log s') :
    Guarded s'.shared (Pool.stages (accessMachine manager) t log) :=
  Pool.machine_invariant (accessMachine manager) h ht
    (fun hawait hperform hw => hw.moves (moves_of_performs hawait hperform))
    (fun hdrift hw => hw.drift hdrift) hguarded

theorem renewed_of_path (ht : InStages manager s t) (hguarded : Guarded s.shared t)
    (hrenewed : Renewed token s.shared t) (h : Path AccessStep s log s') :
    Renewed token s'.shared (Pool.stages (accessMachine manager) t log) :=
  (Pool.machine_invariant (J := fun w t => Guarded w t ∧ Renewed token w t)
    (accessMachine manager) h ht
    (fun hawait hperform hw =>
      have hmove := moves_of_performs hawait hperform
      ⟨hw.1.moves hmove, hw.2.moves hw.1 hmove⟩)
    (fun hdrift hw => ⟨hw.1.drift hdrift, hw.2.drift hdrift⟩) ⟨hguarded, hrenewed⟩).2

/-- A swap puts the token in, and no other call is under way with a refresh. -/
theorem swap_renews {i : I} {expected : Option PyStr} (ht : InStages manager s t)
    (hguarded : Guarded s.shared t) (h : Path AccessStep s (log ++ [swapped i expected token]) s₁) :
    Pool.stages (accessMachine manager) t (log ++ [swapped i expected token]) i =
        .leaving (.ok token) ∧
      Renewed token s₁.shared
        (Pool.stages (accessMachine manager) t (log ++ [swapped i expected token])) ∧
      (token.refreshToken = none → expected = some []) := by
  have hafter := guarded_of_path ht hguarded h
  obtain ⟨mid, hbefore, hlast⟩ := path_append.1 h
  obtain ⟨_, hstep, hnil⟩ := path_cons.1 hlast
  cases hnil
  have hmid := Pool.task_of_path (accessMachine manager) hbefore ht
  have hguardedMid := guarded_of_path ht hguarded hbefore
  cases hstep with
  | perform _ _ hawait hperform =>
    obtain ⟨sent, rfl, hstage⟩ := swapping_of_await ((hmid i).symm.trans hawait)
    have hstore := hperform.swapped.2
    have hleaving : Pool.stages (accessMachine manager) t (log ++ [swapped i (some sent) token]) i =
        .leaving (.ok token) := by
      rw [Pool.stages_append, Pool.stages_perform, Pool.stages_nil, Function.update_self, hstage]
      rfl
    have hinside : (Pool.stages (accessMachine manager) t
        (log ++ [swapped i (some sent) token]) i).Inside := by
      rw [hleaving]
      trivial
    refine ⟨hleaving, .inr ⟨hstore, fun j hj => ?_⟩, fun hnone => ?_⟩
    · obtain rfl := hafter.mutex.alone j i hj.inside hinside
      rw [hleaving] at hj
      exact hj
    · have hbacked := hguardedMid.backed i
      rw [hstage] at hbacked
      rw [hbacked.2 hnone]

omit [DecidableEq I] in
theorem past_foldl {found : OAuthToken} {stage : Stage} (h : stage.Past found)
    (events : Trace TokenOp TokenOp.Answer) :
    (events.foldl (accessMachine manager).next stage).Past found := by
  induction events generalizing stage with
  | nil => exact h
  | cons event events ih => exact ih (h.next event)

/-- A call that found a token due, and does not have the lock, is on its way to it. -/
theorem FoundDue.onCourse {j : I} (h : FoundDue s log j)
    (ht : InStages manager s (Pool.stages (accessMachine manager) (fun _ => .start) log))
    (houtside : ¬(Pool.stages (accessMachine manager) (fun _ => .start) log j).Inside)
    (htoken : token.refreshToken ≠ none) :
    (Pool.stages (accessMachine manager) (fun _ => .start) log j).OnCourse token s.shared.clock := by
  obtain ⟨found, rest, hevents, hdue⟩ := h.found
  have hpast : (Pool.stages (accessMachine manager) (fun _ => .start) log j).Past found := by
    unfold Pool.stages
    rw [hevents]
    exact past_foldl (show (Stage.seen found).Past found from rfl) rest
  have hended : ∀ r, Pool.stages (accessMachine manager) (fun _ => .start) log j ≠ .ended r :=
    fun r hr => h.suspended r (ht.ended hr)
  generalize Pool.stages (accessMachine manager) (fun _ => .start) log j = stage at *
  cases stage with
  | start => exact hpast.elim
  | seen token' =>
    obtain rfl := hpast
    exact ⟨hdue, htoken⟩
  | waiting => exact htoken
  | ended r => exact absurd rfl (hended r)
  | _ => exact absurd trivial houtside

/-- **A call on its way to a token** gets there if it resumes in time. -/
theorem onCourse_of_path {j : I} (ht : InStages manager s t) (hguarded : Guarded s.shared t)
    (hrenewed : Renewed token s.shared t) (hcourse : (t j).OnCourse token s.shared.clock)
    (h : Path (InTimeStep token j) s log s') :
    (Pool.stages (accessMachine manager) t log j).OnCourse token s'.shared.clock := by
  refine (Pool.machine_invariant
    (J := fun w t => Guarded w t ∧ Renewed token w t ∧ (t j).OnCourse token w.clock)
    (accessMachine manager) h ht ?_ ?_ ⟨hguarded, hrenewed, hcourse⟩).2.2
  · rintro w w' t i op k x hawait ⟨hperform, hfresh⟩ ⟨hg, hr, hc⟩
    have hmove := moves_of_performs hawait hperform
    refine ⟨hg.moves hmove, hr.moves hg hmove, ?_⟩
    by_cases hj : i = j
    · subst hj
      rw [Function.update_self]
      exact hmove.onCourse hc hr (hfresh rfl)
    · have hi : j ≠ i := fun heq => hj heq.symm
      rw [Function.update_of_ne hi, hmove.clock]
      exact hc
  · rintro w w' t hdrift ⟨hg, hr, hc⟩
    refine ⟨hg.drift hdrift, hr.drift hdrift, ?_⟩
    obtain ⟨clock, hclock, rfl⟩ := hdrift
    exact hc.mono hclock

/-- A call that has not ended can go on, or the one that has the lock can. -/
theorem exists_step (ht : InStages manager s t) (hguarded : Guarded s.shared t) {i : I}
    (hi : ∀ r, t i ≠ .ended r) : ∃ j event s'', AccessStep s (some (j, event)) s'' := by
  have hstep : ∀ j, (∀ r, t j ≠ .ended r) → (t j = .waiting → s.shared.locked () = false) →
      ∃ j event s'', AccessStep s (some (j, event)) s'' := by
    intro j hended hwaiting
    obtain ⟨op, k, x, w, hawait, hperform⟩ :=
      exists_performs manager s.shared j hended hwaiting
    exact ⟨j, ⟨op, x⟩, _, tokenStep_of_performs j ⟨op, x⟩ ((ht j).trans hawait) hperform⟩
  by_cases hlocked : s.shared.locked () = true
  · obtain ⟨j, hj⟩ := hguarded.mutex.locked_iff.1 hlocked
    refine hstep j (fun r hr => ?_) (fun hr => ?_)
    · rw [hr] at hj
      exact hj
    · rw [hr] at hj
      exact hj.elim
  · exact hstep i hi fun _ => Bool.eq_false_iff.2 hlocked

/-- **Concurrent callers share one refresh**, whatever their number, the order of their steps, and the
answers of the token endpoint. -/
theorem getAccessToken_shares (hcalls : ∀ i, s.task i = manager.getAccessToken)
    (hfree : s.shared.locked () = false) : SharesRefresh s := by
  have ht : InStages manager s fun _ => .start := hcalls
  have hguarded : Guarded s.shared fun _ : I => .start := by
    refine ⟨⟨?_, fun _ _ hi => hi.elim⟩, fun _ => trivial⟩
    rw [hfree]
    exact iff_of_false Bool.false_ne_true fun ⟨_, hi⟩ => hi
  refine ⟨?_, ?_, ?_, ?_, ?_⟩
  · intro log s' hrun i j hi hj
    have hstages := Pool.task_of_path (accessMachine manager) hrun ht
    exact (guarded_of_path ht hguarded hrun).mutex.alone i j
      (InStages.exchanging hstages hi).inside (InStages.exchanging hstages hj).inside
  · intro log s₁ i expected token after s' hswap hrun hdue
    obtain ⟨-, hrenewed, -⟩ := swap_renews ht hguarded hswap
    have hstages := Pool.task_of_path (accessMachine manager) hswap ht
    have hlater := renewed_of_path hstages (guarded_of_path ht hguarded hswap) hrenewed hrun
    obtain ⟨hstore, hquiet⟩ := hlater.resolve_left hdue
    have hstages' := Pool.task_of_path (accessMachine manager) hrun hstages
    exact ⟨hstore, fun j hj => hquiet j (InStages.exchanging hstages' hj)⟩
  · intro log s₁ i expected token j after s' r hswap hfound hrun hended htoken
    obtain ⟨hleaving, hrenewed, -⟩ := swap_renews ht hguarded hswap
    have hstages := Pool.task_of_path (accessMachine manager) hswap ht
    have hguarded₁ := guarded_of_path ht hguarded hswap
    have honCourse : (Pool.stages (accessMachine manager) (fun _ => .start)
        (log ++ [swapped i expected token]) j).OnCourse token s₁.shared.clock := by
      by_cases hj : j = i
      · subst hj
        rw [hleaving]
        rfl
      · refine hfound.onCourse hstages (fun hinside => hj ?_) (htoken.resolve_left hj)
        exact hguarded₁.mutex.alone j i hinside (by rw [hleaving]; trivial)
    have hlast := onCourse_of_path hstages hguarded₁ hrenewed honCourse hrun
    rw [Pool.task_of_path (accessMachine manager) hrun hstages j] at hended
    rw [ended_of_program hended] at hlast
    exact hlast
  · intro log s₁ i expected token hswap hnone
    exact (swap_renews ht hguarded hswap).2.2 hnone
  · intro log s' hrun hstuck i
    have hstages := Pool.task_of_path (accessMachine manager) hrun ht
    by_contra hsuspended
    obtain ⟨j, event, s'', hstep⟩ := exists_step hstages (guarded_of_path ht hguarded hrun)
      fun r hr => hsuspended ⟨r, InStages.ended hstages hr⟩
    exact hstuck j event s'' hstep

end

theorem getAccessToken_shares_two :
    SharesRefresh (startPool oldToken fun _ : Bool => simManager.getAccessToken) :=
  getAccessToken_shares (fun _ => rfl) rfl

/-! ## An empty refresh token -/

/-- A token with an empty refresh token. -/
def emptyToken : OAuthToken where
  accessToken := str "a"
  refreshToken := some []
  expiresAt := .utc 0

/-- What a refresh makes of it: an empty refresh token is not kept. -/
def bareToken : OAuthToken where
  accessToken := str "b"
  expiresAt := .utc 1200000000

theorem inTimeStep_of_performs {s : TokenPool Unit I PyStr} {w : TokenWorld Unit} {j : I} (i : I)
    (event : Event TokenOp TokenOp.Answer) {k : TokenOp.Answer event.op → TokenProgram PyStr}
    (htask : s.task i = .await event.op k)
    (h : PerformsInTime token j i s.shared event.op event.answer w) :
    InTimeStep token j s (some (i, event)) ⟨w, Function.update s.task i (k event.answer)⟩ :=
  .perform i event.answer htask h

/-- Two calls find the token due; the second takes the lock behind the refresh of the first. -/
theorem second_call_raises : ∃ s₁ s' : TokenPool Unit Bool PyStr,
    Path AccessStep (startPool emptyToken fun _ => simManager.getAccessToken)
      ([some (true, ⟨.load, some emptyToken⟩), some (true, ⟨.now, .utc 0⟩),
        some (false, ⟨.load, some emptyToken⟩), some (false, ⟨.now, .utc 0⟩),
        some (true, ⟨.acquire, ()⟩), some (true, ⟨.load, some emptyToken⟩),
        some (true, ⟨.now, .utc 0⟩),
        some (true, ⟨.send (simManager.refreshRequest []), .ok grant⟩),
        some (true, ⟨.now, .utc 0⟩)] ++ [swapped true (some []) bareToken]) s₁ ∧
    Path (InTimeStep bareToken false) s₁ [some (true, ⟨.release, ()⟩),
      some (false, ⟨.acquire, ()⟩), some (false, ⟨.load, some bareToken⟩),
      some (false, ⟨.release, ()⟩)] s' ∧
    s₁.shared.clock = 0 ∧ (∀ r, ¬(s₁.task false).Ended r) ∧
    (s'.task false).Ended (.error OAuthManager.missingRefreshToken) := by
  apply Exists.intro
  apply Exists.intro
  refine ⟨?_, ?_, ?_, ?_, ?_⟩
  · apply Path.cons (tokenStep_of_performs true ⟨.load, some emptyToken⟩ rfl (.load _ rfl))
    apply Path.cons (tokenStep_of_performs true ⟨.now, .utc 0⟩ rfl (.now _ rfl))
    apply Path.cons (tokenStep_of_performs false ⟨.load, some emptyToken⟩ rfl (.load _ rfl))
    apply Path.cons (tokenStep_of_performs false ⟨.now, .utc 0⟩ rfl (.now _ rfl))
    apply Path.cons (tokenStep_of_performs true ⟨.acquire, ()⟩ rfl (.acquire rfl))
    apply Path.cons (tokenStep_of_performs true ⟨.load, some emptyToken⟩ rfl (.load _ rfl))
    apply Path.cons (tokenStep_of_performs true ⟨.now, .utc 0⟩ rfl (.now _ rfl))
    apply Path.cons (tokenStep_of_performs true ⟨.send _, .ok grant⟩ rfl (.send _ _))
    apply Path.cons (tokenStep_of_performs true ⟨.now, .utc 0⟩ rfl (.now _ rfl))
    apply Path.single (tokenStep_of_performs true
      ⟨.compareAndSwapRefreshToken _ bareToken, true⟩ rfl (.swap _ _ true _ rfl))
  · apply Path.cons (inTimeStep_of_performs (j := false) true ⟨.release, ()⟩ rfl ⟨.release, nofun⟩)
    apply Path.cons (inTimeStep_of_performs (j := false) false ⟨.acquire, ()⟩ rfl
      ⟨.acquire rfl, fun _ _ => rfl⟩)
    apply Path.cons (inTimeStep_of_performs (j := false) false ⟨.load, some bareToken⟩ rfl
      ⟨.load _ rfl, fun _ _ => rfl⟩)
    apply Path.single (inTimeStep_of_performs (j := false) false ⟨.release, ()⟩ rfl
      ⟨.release, fun _ _ => rfl⟩)
  · rfl
  · exact fun r hr => hr
  · rfl

/-- A call that found a token due does not always return the one that is stored then. -/
theorem not_returned_bare :
    ¬∀ {log s₁ i expected token j after s' r},
      Path AccessStep (startPool emptyToken fun _ : Bool => simManager.getAccessToken)
          (log ++ [swapped i expected token]) s₁ →
        FoundDue s₁ (log ++ [swapped i expected token]) j → Path (InTimeStep token j) s₁ after s' →
          (s'.task j).Ended r → r = .ok token.accessToken := by
  intro h
  obtain ⟨s₁, s', hswap, hafter, hclock, hsuspended, hended⟩ := second_call_raises
  have hdue : emptyToken.DueBy s₁.shared.clock := by
    rw [hclock]
    exact ⟨rfl, by decide⟩
  cases h hswap ⟨⟨emptyToken, _, rfl, hdue⟩, hsuspended⟩ hafter hended

end TradeStation
