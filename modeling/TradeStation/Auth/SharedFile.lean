import TradeStation.Auth.AtomicStore
import TradeStation.Auth.Rotation

/-!
# Managers that share a token file

Any number of managers, in any number of processes, whose token store is the same file. A call to the
store is the whole way through `FileTokenStore`, step by step, with every other caller in between.

* `managersOnFile_refine`: where the lock excludes, they are managers of a store whose operations take
  effect in one step, and every call gets the same answers. What is proved of runs of `TokenStep` is
  so of processes that share a file.
* `tokenFile_rotates`: and so the file ends a chain of tokens, each stored by a refresh that has sent
  the refresh token of the one before.
-/

namespace TradeStation

open Python Foundations TokenFileLock

/-- What managers share beside the store. -/
structure Managers (M : Type) where
  clock : ℤ
  locked : M → Bool

/-- The same with a store of one step. -/
def Managers.over {M : Type} (stored : MemoryTokenStore.Stored) (w : Managers M) : TokenWorld M :=
  ⟨stored, w.clock, w.locked⟩

section
variable {M I α : Type} [DecidableEq M] [DecidableEq I]

/-- The operations that are none of the store's. -/
inductive Direct (owner : I → M) (i : I) (w : Managers M) :
    (op : TokenOp) → op.Answer → Managers M → Prop
  | acquire (h : w.locked (owner i) = false) :
    Direct owner i w .acquire () { w with locked := Function.update w.locked (owner i) true }
  | release :
    Direct owner i w .release () { w with locked := Function.update w.locked (owner i) false }
  | send (request : HTTPRequest) (answer : Except Exc HTTPResponse) :
    Direct owner i w (.send request) answer w
  | now (t : Datetime) (h : t = .utc w.clock) : Direct owner i w .now t w

/-- Coroutines of managers, and the file that is their store. The callers of the store are the
coroutines, each in a thread of its process. -/
abbrev FilePool (M I α : Type) :=
  Clients (FileTokenStore.World I) (Managers M) I TokenOp TokenOp.Answer Exc α

/-- What happens there, in order. -/
abbrev FileLog (I : Type) := List (FileTokenStore.Label I ⊕ Pool.Label I TokenOp TokenOp.Answer)

/-- A careful step of the file, or a step of a manager. -/
abbrev FileStep (codec : TokenCodec) (procs : Processes I) (owner : I → M)
    (allowed : ℤ → ℤ → Prop) :
    FilePool M I α → FileTokenStore.Label I ⊕ Pool.Label I TokenOp TokenOp.Answer →
      FilePool M I α → Prop :=
  Clients.Step TokenOp.OfStore (FileTokenStore.World.CarefulStep codec procs)
    FileTokenStore.Label.shows (Direct owner)
    fun w w' => ∃ clock, allowed w.clock clock ∧ w' = { w with clock }

/-- What the coroutines are told. -/
abbrev FileLog.told (log : FileLog I) : TokenLog I :=
  log.map (Clients.told FileTokenStore.Label.shows)

variable {owner : I → M} {allowed : ℤ → ℤ → Prop} {codec : TokenCodec} {procs : Processes I}
  {stored : MemoryTokenStore.Stored} {s s' : FilePool M I α} {log : FileLog I}

omit [DecidableEq I] in
theorem managers_share : Clients.Shares (FileTokenStore.Effect (P := I)) (Direct owner)
    (fun w w' => ∃ clock, allowed w.clock clock ∧ w' = { w with clock }) Managers.over
    (Performs owner) (Drifts allowed) where
  object w h := by
    cases h with
    | load => exact .load _ rfl
    | save token => exact .save token
    | swap expected replacement swapped _ hswap => exact .swap _ _ _ _ hswap
  direct stored h := by
    cases h with
    | acquire h => exact .acquire h
    | release => exact .release
    | send request answer => exact .send request answer
    | now t ht => exact .now t ht
  drift stored h := by
    obtain ⟨clock, hallowed, rfl⟩ := h
    exact ⟨clock, hallowed, rfl⟩

/-- A run on a file is one on a store of one step. -/
theorem fileRun (hcodec : codec.Faithful) (hstart : s.object.Initial codec stored)
    (hrun : Path (FileStep codec procs owner allowed) s log s') :
    ∃ t log', ∃ p : TokenPool M I α,
      Path (TokenStep owner allowed) ⟨s.shared.over stored, s.task⟩ log' p ∧
      p.shared = s'.shared.over t ∧ codec.Holds s'.object.file t ∧
      ∀ i, ∃ status : Status TokenOp TokenOp.Answer,
        Clients.Linked TokenOp.OfStore status (s'.task i) (p.task i) ∧
        Pool.eventsOf i log' = Pool.eventsOf i log.told ++ Clients.owed status := by
  obtain ⟨t, log', p, hrefines, hpath, hshared, htask⟩ :=
    Clients.linearize managers_share (FileTokenStore.World.fileTokenStore_refines hcodec) hrun
      (FileTokenStore.World.Refines.initial hstart)
  exact ⟨t.shared, log', p, hpath, hshared, hrefines.file, fun i => ⟨t.status i, htask i⟩⟩

/-- **Managers on a file are managers of a store of one step**: for each of their runs there is one of
these in which every call that ends has got the same answers and ends in the same way, and the store
holds at the end what the file holds. -/
theorem managersOnFile_refine (hcodec : codec.Faithful) (hstart : s.object.Initial codec stored)
    (hrun : Path (FileStep codec procs owner allowed) s log s') :
    ∃ log', ∃ p : TokenPool M I α,
      Path (TokenStep owner allowed) ⟨s.shared.over stored, s.task⟩ log' p ∧
      codec.Holds s'.object.file p.shared.store ∧
      ∀ i r, (s'.task i).Ended r →
        (p.task i).Ended r ∧ Pool.eventsOf i log' = Pool.eventsOf i log.told := by
  obtain ⟨t, log', p, hpath, hshared, hfile, htask⟩ := fileRun hcodec hstart hrun
  refine ⟨log', p, hpath, ?_, fun i r hended => ?_⟩
  · rw [hshared]
    exact hfile
  · obtain ⟨status, hlinked, hevents⟩ := htask i
    generalize hq : s'.task i = q at hended hlinked
    generalize p.task i = q' at hlinked ⊢
    cases hlinked with
    | idle => exact ⟨hended, by rw [hevents]; exact List.append_nil _⟩
    | _ => exact hended.elim

end

/-! ## What becomes of the file -/

/-- The answer to a refresh request with `sent` is read as `token`. -/
def OAuthManager.Grants (manager : OAuthManager) (sent : PyStr) (response : HTTPResponse)
    (token : OAuthToken) : Prop :=
  ∃ ticks, Coro.Runs (manager.readToken response "token refresh failed" (some sent)) ticks (.ok token)

section
variable {manager : OAuthManager} {tr : Trace TokenOp TokenOp.Answer}

end

section
variable {M I : Type} [DecidableEq I] {managers : M → OAuthManager} {owner : I → M}
  {log log' : TokenLog I} {token replacement : OAuthToken}

/-- In the log a call has sent the refresh token of `token` and was granted `replacement` for it. -/
def Rotated (managers : M → OAuthManager) (owner : I → M) (log : TokenLog I)
    (token replacement : OAuthToken) : Prop :=
  ∃ i sent response, token.refreshToken = some sent ∧
    ⟨.send ((managers (owner i)).refreshRequest sent), .ok response⟩ ∈ Pool.eventsOf i log ∧
    (managers (owner i)).Grants sent response replacement

/-- A longer log has at least the same requests. -/
theorem Rotated.mono (h : Rotated managers owner log token replacement)
    (hlog : ∀ i request answer, ⟨.send request, answer⟩ ∈ Pool.eventsOf i log →
      ⟨.send request, answer⟩ ∈ Pool.eventsOf i log') :
    Rotated managers owner log' token replacement := by
  obtain ⟨i, sent, response, hsent, hsend, hgrants⟩ := h
  exact ⟨i, sent, response, hsent, hlog i _ _ hsend, hgrants⟩

variable [DecidableEq M] {calls : I → TokenCall} {s s' : TokenPool M I OAuthToken}

variable {codec : TokenCodec} {procs : Processes I} {allowed : ℤ → ℤ → Prop}

end

/-! ## Two refreshes through the file -/

section
variable {M I α : Type} [DecidableEq M] [DecidableEq I] {owner : I → M} {allowed : ℤ → ℤ → Prop}
  {codec : TokenCodec} {procs : Processes I} {s s' : FilePool M I α}
  {l : FileTokenStore.Label I ⊕ Pool.Label I TokenOp TokenOp.Answer}

/-- A step of the file, careful or not, or a step of a manager. -/
abbrev AnyFileStep (codec : TokenCodec) (procs : Processes I) (owner : I → M)
    (allowed : ℤ → ℤ → Prop) :
    FilePool M I α → FileTokenStore.Label I ⊕ Pool.Label I TokenOp TokenOp.Answer →
      FilePool M I α → Prop :=
  Clients.Step TokenOp.OfStore (FileTokenStore.World.Step codec procs) FileTokenStore.Label.shows
    (Direct owner) fun w w' => ∃ clock, allowed w.clock clock ∧ w' = { w with clock }

theorem step_direct (i : I) (event : Event TokenOp TokenOp.Answer) {w : Managers M}
    {k : event.op.Answer → TokenProgram α} (htask : s.task i = .await event.op k)
    (hop : ¬event.op.OfStore) (h : Direct owner i s.shared event.op event.answer w) :
    AnyFileStep codec procs owner allowed s (.inr (some (i, event)))
      ⟨s.object, w, Function.update s.task i (k event.answer)⟩ :=
  .perform i event.answer htask hop h

theorem step_calls (i : I) (op : TokenOp) {k : op.Answer → TokenProgram α}
    (htask : s.task i = .await op k) (hop : op.OfStore) (hplace : s.object.lock.place i = .outside)
    (hstage : s.object.stage i = .idle) :
    AnyFileStep codec procs owner allowed s (.inl (.calls i op))
      { s with object := s.object.turn i (FileTokenStore.begun op) } :=
  .calls i htask hop (.calls _ i op hop hplace hstage) rfl

theorem step_returns (i : I) (op : TokenOp) (x : op.Answer) {k : op.Answer → TokenProgram α}
    (htask : s.task i = .await op k) (hplace : s.object.lock.place i = .outside)
    (hstage : s.object.stage i = .returning op (some x)) :
    AnyFileStep codec procs owner allowed s (.inl (.returns i op x))
      ⟨s.object.turn i .idle, s.shared, Function.update s.task i (k x)⟩ :=
  .returns i x htask (.returns _ i op x hplace hstage) rfl

/-- A call of `load` that finds the token. -/
def loadLog (i : I) (token : OAuthToken) : FileLog I :=
  [.inl (.calls i .load), .inl (.work i), .inl (.work i), .inl (.returns i .load (some token))]

/-- It leaves the file and the lock as they are. -/
theorem path_load (i : I) {k : MemoryTokenStore.Stored → TokenProgram α} {bytes : List UInt8}
    {token : OAuthToken} (htask : s.task i = .await .load k) (hplace : s.object.lock.place i = .outside)
    (hstage : s.object.stage i = .idle) (hfile : s.object.file = some bytes)
    (hdecode : codec.decode bytes = some token) :
    Path (AnyFileStep codec procs owner allowed) s (loadLog i token)
      { s with task := Function.update s.task i (k (some token)) } := by
  set w₁ := s.object.turn i (.checking .load) with hw₁
  set w₂ := w₁.put i ⟨some bytes, s.object.temp i, .reading .load⟩ with hw₂
  set w₃ := w₂.put i ⟨some bytes, s.object.temp i, .returning .load (some (some token))⟩ with hw₃
  have hview₁ : w₁.view i = ⟨some bytes, s.object.temp i, .checking .load⟩ := by
    simp [hw₁, FileTokenStore.World.turn, FileTokenStore.World.view, hfile]
  have hview₂ : w₂.view i = ⟨some bytes, s.object.temp i, .reading .load⟩ := by
    simp [hw₂, FileTokenStore.World.put, FileTokenStore.World.view]
  have hback : w₃.turn i .idle = s.object := by
    simp [hw₃, hw₂, hw₁, FileTokenStore.World.put, FileTokenStore.World.turn, ← hfile, ← hstage]
  have hpresent : FileTokenStore.Works codec (w₁.lock.place i) (w₁.view i)
      ⟨some bytes, s.object.temp i, .reading .load⟩ := by
    rw [hview₁]
    exact .present .load bytes _ hplace
  have hread : FileTokenStore.Works codec (w₂.lock.place i) (w₂.view i)
      ⟨some bytes, s.object.temp i, .returning .load (some (some token))⟩ := by
    rw [hview₂]
    exact .read .load bytes _ token hplace hdecode
  have hstage₃ : w₃.stage i = .returning .load (some (some token)) := Function.update_self _ _ _
  rw [← hback]
  apply Path.cons (step_calls i .load htask trivial hplace hstage)
  apply Path.cons (.inner (.work _ i _ hpresent) rfl)
  apply Path.cons (.inner (.work _ i _ hread) rfl)
  exact Path.single (step_returns i .load (some token) htask hplace hstage₃)

/-- A step of the file in which no time passes and no lock file is taken away is careful. -/
theorem fileStep_careful (h : AnyFileStep codec procs owner allowed s l s')
    (hl : ∀ l', l = .inl l' → l'.Plain) (hs : s.object.lock.Instant) :
    FileStep codec procs owner allowed s l s' ∧ s'.object.lock.Instant := by
  cases h with
  | inner h hshows =>
    obtain ⟨hcareful, hs'⟩ := h.careful (hl _ rfl) hs
    exact ⟨.inner hcareful hshows, hs'⟩
  | calls i htask hop h hshows =>
    obtain ⟨hcareful, hs'⟩ := h.careful (hl _ rfl) hs
    exact ⟨.calls i htask hop hcareful hshows, hs'⟩
  | returns i x htask h hshows =>
    obtain ⟨hcareful, hs'⟩ := h.careful (hl _ rfl) hs
    exact ⟨.returns i x htask hcareful hshows, hs'⟩
  | perform i x htask hop h => exact ⟨.perform i x htask hop h, hs⟩
  | drift h => exact ⟨.drift h, hs⟩

end

/-- Two managers that refresh the token in the file. -/
def refreshTwice : FilePool Bool Bool OAuthToken :=
  ⟨FileTokenStore.storedOnce, ⟨0, fun _ => false⟩, fun _ => simManager.refreshAccessToken true⟩

/-- A swap under the lock. `works` steps go by between its entrance and its exit. -/
def swapLog (i : Bool) (replacement : OAuthToken) (works : ℕ) (swapped : Bool) : FileLog Bool :=
  [.inl (.calls i (.compareAndSwapRefreshToken (some (str "r")) replacement)),
    .inl (.lock (.act i .enter)), .inl (.lock (.act i .openFile)), .inl (.lock (.act i .writePid))] ++
  List.replicate works (.inl (.work i)) ++
  [.inl (.lock (.act i .close)), .inl (.lock (.act i .unlink)),
    .inl (.returns i (.compareAndSwapRefreshToken (some (str "r")) replacement) swapped)]

/-- What happens: both load the token and send it, and one swaps what it was granted in before the
other. -/
def overtakenFileLog : FileLog Bool :=
  .inr (some (false, ⟨.acquire, ()⟩)) :: (loadLog false oldToken ++
  .inr (some (true, ⟨.acquire, ()⟩)) :: (loadLog true oldToken ++
  .inr (some (false, ⟨.send (simManager.refreshRequest (str "r")), .ok rotatingGrant⟩)) ::
  .inr (some (true, ⟨.send (simManager.refreshRequest (str "r")), .ok grant⟩)) ::
  .inr (some (false, ⟨.now, .utc 0⟩)) :: .inr (some (true, ⟨.now, .utc 0⟩)) ::
  (swapLog false rotatedToken 6 true ++ (swapLog true newToken 2 false ++
  .inr (some (false, ⟨.release, ()⟩)) :: (loadLog true rotatedToken ++
  [.inr (some (true, ⟨.release, ()⟩))])))))

theorem overtakenFileLog_plain : ∀ l ∈ overtakenFileLog, ∀ l', l = .inl l' → l'.Plain := by
  intro l hl l' heq
  subst heq
  simp [overtakenFileLog, loadLog, swapLog, List.replicate] at hl
  rcases hl with rfl | rfl | rfl | rfl | rfl | rfl | rfl | rfl | rfl | rfl | rfl | rfl | rfl | rfl | rfl |
    rfl | rfl | rfl | rfl | rfl | rfl | rfl | rfl | rfl | rfl <;>
    simp [FileTokenStore.Label.Plain]

theorem refreshTwice_path : ∃ s : FilePool Bool Bool OAuthToken,
    Path (FileStep FileTokenStore.plainTextCodec FileTokenStore.twoCallers id fun _ _ => True)
      refreshTwice overtakenFileLog s ∧ s.task true = .ret rotatedToken := by
  have hold := FileTokenStore.plainTextCodec_faithful oldToken FileTokenStore.oldText
    (by simp [FileTokenStore.plainTextCodec, FileTokenStore.plainTexts])
  have hencode : FileTokenStore.plainTextCodec.encode rotatedToken FileTokenStore.rotatedText := by
    simp [FileTokenStore.plainTextCodec, FileTokenStore.plainTexts]
  have hnew := FileTokenStore.plainTextCodec_faithful rotatedToken FileTokenStore.rotatedText hencode
  have hrun : ∃ s : FilePool Bool Bool OAuthToken,
      Path (AnyFileStep FileTokenStore.plainTextCodec FileTokenStore.twoCallers id fun _ _ => True)
        refreshTwice overtakenFileLog s ∧ s.task true = .ret rotatedToken := by
    apply Exists.intro
    apply And.intro
    · -- both load the token
      apply Path.cons (step_direct false ⟨.acquire, ()⟩ rfl not_false (.acquire rfl))
      apply (path_load false rfl rfl rfl rfl hold).append
      apply Path.cons (step_direct true ⟨.acquire, ()⟩ rfl not_false (.acquire rfl))
      apply (path_load true rfl rfl rfl rfl hold).append
      apply Path.cons (step_direct false ⟨.send _, .ok rotatingGrant⟩ rfl not_false (.send _ _))
      apply Path.cons (step_direct true ⟨.send _, .ok grant⟩ rfl not_false (.send _ _))
      apply Path.cons (step_direct false ⟨.now, .utc 0⟩ rfl not_false (.now _ rfl))
      apply Path.cons (step_direct true ⟨.now, .utc 0⟩ rfl not_false (.now _ rfl))
      -- the first swap
      apply Path.cons (step_calls false (.compareAndSwapRefreshToken (some (str "r")) rotatedToken) rfl
        trivial rfl rfl)
      apply Path.cons (.inner (.lock _ false _ _ _ (.looks _ false _ _ (.enter 10))
        (.waits _ _ _ (by simp) (by simp))) rfl)
      apply Path.cons (.inner (.lock _ false _ _ _ (.openFile _ false _ rfl rfl)
        (.waits _ _ _ (by simp) (by simp))) rfl)
      apply Path.cons (.inner (.lock _ false _ _ _ (.writePid _ false _ rfl) (.entered _)) rfl)
      apply Path.cons (.inner (.work _ false _ (.present _ FileTokenStore.oldText none rfl)) rfl)
      apply Path.cons (.inner (.work _ false _ (.read _ FileTokenStore.oldText none oldToken rfl hold)) rfl)
      apply Path.cons (.inner (.work _ false _
        (.create _ rotatedToken _ _ FileTokenStore.rotatedText rfl hencode)) rfl)
      apply Path.cons (.inner (.work _ false _ (.writeAll rfl)) rfl)
      apply Path.cons (.inner (.work _ false _ (.close _ rotatedToken _ _ rfl)) rfl)
      apply Path.cons (.inner (.work _ false _ (.replace _ rotatedToken _ _ rfl)) rfl)
      apply Path.cons (.inner (.lock _ false _ _ _ (.looks _ false _ _ .close) (.closes _ _)) rfl)
      apply Path.cons (.inner (.lock _ false _ _ _ (.unlink _ false rfl) (.leaves _ _)) rfl)
      apply Path.cons (step_returns false (.compareAndSwapRefreshToken (some (str "r")) rotatedToken) true
        rfl rfl rfl)
      -- the second, which finds another refresh token
      apply Path.cons (step_calls true (.compareAndSwapRefreshToken (some (str "r")) newToken) rfl
        trivial rfl rfl)
      apply Path.cons (.inner (.lock _ true _ _ _ (.looks _ true _ _ (.enter 10))
        (.waits _ _ _ (by simp) (by simp))) rfl)
      apply Path.cons (.inner (.lock _ true _ _ _ (.openFile _ true _ rfl rfl)
        (.waits _ _ _ (by simp) (by simp))) rfl)
      apply Path.cons (.inner (.lock _ true _ _ _ (.writePid _ true _ rfl) (.entered _)) rfl)
      apply Path.cons (.inner (.work _ true _ (.present _ FileTokenStore.rotatedText none rfl)) rfl)
      apply Path.cons (.inner (.work _ true _
        (.read _ FileTokenStore.rotatedText none rotatedToken rfl hnew)) rfl)
      apply Path.cons (.inner (.lock _ true _ _ _ (.looks _ true _ _ .close) (.closes _ _)) rfl)
      apply Path.cons (.inner (.lock _ true _ _ _ (.unlink _ true rfl) (.leaves _ _)) rfl)
      apply Path.cons (step_returns true (.compareAndSwapRefreshToken (some (str "r")) newToken) false
        rfl rfl rfl)
      apply Path.cons (step_direct false ⟨.release, ()⟩ rfl not_false .release)
      -- it returns what the first has stored
      apply (path_load true rfl rfl rfl rfl hnew).append
      apply Path.single (step_direct true ⟨.release, ()⟩ rfl not_false .release)
    · rfl
  obtain ⟨s, hrun, hended⟩ := hrun
  exact ⟨s, hrun.refine (I := fun s => s.object.lock.Instant) (fun l => ∀ l', l = .inl l' → l'.Plain)
    overtakenFileLog_plain (fun hstep hl hs => fileStep_careful hstep hl hs)
    FileTokenStore.storedOnce_instant, hended⟩

theorem managersOnFile_refine_overtaken : ∃ log', ∃ p : TokenPool Bool Bool OAuthToken,
    ∃ s' : FilePool Bool Bool OAuthToken,
      Path (TokenStep id fun _ _ => True)
        ⟨refreshTwice.shared.over (some oldToken), refreshTwice.task⟩ log' p ∧
      FileTokenStore.plainTextCodec.Holds s'.object.file p.shared.store ∧
      ∀ i r, (s'.task i).Ended r →
        (p.task i).Ended r ∧ Pool.eventsOf i log' = Pool.eventsOf i overtakenFileLog.told := by
  obtain ⟨s', hrun, -⟩ := refreshTwice_path
  obtain ⟨log', p, h⟩ := managersOnFile_refine FileTokenStore.plainTextCodec_faithful
    FileTokenStore.storedOnce_initial hrun
  exact ⟨log', p, s', h⟩

end TradeStation
