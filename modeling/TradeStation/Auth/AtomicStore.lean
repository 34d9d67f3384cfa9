import TradeStation.Auth.Durable
import TradeStation.Auth.Exclusion

/-!
# The token store in a file is atomic

Where the lock excludes, callers of `FileTokenStore` cannot tell it from a store whose operations take
effect in one step. `load` takes effect where it reads the file, without the lock; `save` and a
`compare_and_swap_refresh_token` that swaps at `os.replace`; one that does not swap where it reads.

* `Effect` is the store of one step.
* `Advances`: what a call does to the file, the atomic store does in no more than one step.
* `Refines` is the invariant that ties the file to the atomic store; `fileTokenStore_refines`: a careful
  step keeps it. What carries it is `Expects`: as long as a call is inside the lock, what it has read is
  still in the file.
* `fileTokenStore_linearizable`: every run of careful steps shows what a run of the atomic store
  shows.
-/

namespace TradeStation.FileTokenStore

open Python Foundations TokenFileLock

/-- What an operation does to a store in one step. -/
inductive Effect {P : Type} (p : P) :
    MemoryTokenStore.Stored → (op : TokenOp) → op.Answer → MemoryTokenStore.Stored → Prop
  | load (held : MemoryTokenStore.Stored) : Effect p held .load held held
  | save (held : MemoryTokenStore.Stored) (token : OAuthToken) :
    Effect p held (.save token) () (some token)
  | swap (held held' : MemoryTokenStore.Stored) (expected : Option PyStr) (replacement : OAuthToken)
    (swapped : Bool)
    (h : MemoryTokenStore.compareAndSwapRefreshToken held expected replacement = (swapped, held')) :
    Effect p held (.compareAndSwapRefreshToken expected replacement) swapped held'

/-- The store of one step, with its callers. -/
abbrev Store (P : Type) := Atomic MemoryTokenStore.Stored P TokenOp TokenOp.Answer

/-! ## Where a call is -/

/-- Where a caller of the atomic store is. -/
def StatusOf : Stage → Status TokenOp TokenOp.Answer → Prop
  | .idle, status => status = .idle
  | .locking op, status | .checking op, status | .reading op, status | .creating op _, status
  | .writing op _ _, status | .replacing op _, status | .cleaning op, status =>
    status = .called op
  | .leaving op none, status => status = .called op
  | .leaving op (some x), status | .returning op (some x), status => status = .answered op x
  | .returning op none, status => ∃ effect, status = .failed op effect

/-- A call is where its place in the lock lets it be, and the token that it writes is the one that it was
given. -/
def Fits : Stage → Place → Prop
  | .idle, x | .returning _ _, x => x = .outside ∨ x = .crashed
  | .locking op, x => op ≠ .load ∧ x ≠ .inside ∧ x ≠ .closing
  | .checking op, x | .reading op, x | .cleaning op, x => Runs op x ∨ x = .crashed
  | .creating op token, x | .writing op token _, x | .replacing op token, x =>
    (Runs op x ∨ x = .crashed) ∧ op.written = some token
  | .leaving _ _, x => x = .inside ∨ x = .closing ∨ x = .crashed

/-- What a call has read on its way to a swap. -/
def Expects : Stage → MemoryTokenStore.Stored → Prop
  | .creating (.compareAndSwapRefreshToken expected _) _, held
  | .writing (.compareAndSwapRefreshToken expected _) _ _, held
  | .replacing (.compareAndSwapRefreshToken expected _) _, held =>
    held.bind OAuthToken.refreshToken = expected
  | _, _ => True

section
variable {op : TokenOp} {x : Place} {held : MemoryTokenStore.Stored} {act : Act}
  {stage stage' : Stage} {token : OAuthToken}

theorem runs_inside (h : Runs op x) (hwritten : op.written = some token) : x = .inside := by
  cases op with
  | load => cases hwritten
  | _ => exact h

theorem fits_raised (h : Runs op x) : Fits (raised op) x := by
  cases op with
  | load => exact .inl h
  | _ => exact .inl h

theorem fits_loaded (h : Runs op x) : Fits (loaded held op) x := by
  cases op with
  | load => exact .inl h
  | compareAndSwapRefreshToken expected replacement =>
    simp only [loaded]
    split_ifs
    · exact .inl h
    · exact ⟨.inl h, rfl⟩
  | _ => exact .inl h

theorem fits_saved (h : x = .inside) : Fits (saved op) x := by
  cases op <;> exact .inl h

theorem fits_begun (hop : op.OfStore) : Fits (begun op) .outside := by
  cases op with
  | load => exact .inl rfl
  | save | compareAndSwapRefreshToken => exact ⟨by simp, by simp, by simp⟩
  | _ => exact hop.elim

theorem status_begun (op : TokenOp) : StatusOf (begun op) (.called op) := by
  cases op <;> rfl

/-- A call that locks goes on inside the lock. -/
theorem fits_entered (hop : op ≠ .load) : Fits (entered op) .inside := by
  cases op with
  | load => exact absurd rfl hop
  | save token => exact ⟨.inl rfl, rfl⟩
  | _ => exact .inl rfl

theorem expects_loaded : Expects (loaded held op) held := by
  cases op with
  | compareAndSwapRefreshToken expected replacement =>
    simp only [loaded]
    split_ifs with h
    · trivial
    · exact not_not.1 h
  | _ => trivial

theorem expects_begun : Expects (begun op) held := by
  cases op <;> trivial

theorem expects_entered : Expects (entered op) held := by
  cases op <;> trivial

theorem expects_saved : Expects (saved op) held := by
  cases op <;> trivial

theorem expects_raised : Expects (raised op) held := by
  cases op <;> trivial

end

/-! ## A call goes on -/

section
variable {P : Type} [DecidableEq P] {p : P} {t : Store P} {op : TokenOp} {x : Place}
  {held : MemoryTokenStore.Stored} {stage stage' : Stage} {codec : TokenCodec} {v v' : View}

/-- Without anything to show, the atomic store comes to hold `held`, and its caller to where the call
is. -/
def Advances (p : P) (t : Store P) (held : MemoryTokenStore.Stored) (stage : Stage) : Prop :=
  ∃ ls status, Path (Atomic.Step Effect) t ls { t.turn p status with shared := held } ∧
    ls.filterMap id = [] ∧ StatusOf stage status

theorem advances_still (h : StatusOf stage (t.status p)) : Advances p t t.shared stage := by
  refine ⟨[], t.status p, ?_, rfl, h⟩
  have hsame : { t.turn p (t.status p) with shared := t.shared } = t := by
    simp [Atomic.turn]
  rw [hsame]
  exact .nil t

theorem advances_performs {y : op.Answer} (h : t.status p = .called op)
    (heffect : Effect p t.shared op y held) (hstage : StatusOf stage (.answered op y)) :
    Advances p t held stage :=
  ⟨[none], .answered op y, .single (.performs p y h heffect), rfl, hstage⟩

/-- An exception before anything has been done. -/
theorem advances_fails (h : t.status p = .called op) :
    Advances p t t.shared (.returning op none) :=
  ⟨[none], .failed op none, .single (.fails p h), rfl, ⟨none, rfl⟩⟩

/-- An exception on the way out of the lock. -/
theorem advances_failsLeaving {outcome : Option op.Answer}
    (h : StatusOf (.leaving op outcome) (t.status p)) :
    Advances p t t.shared (.returning op none) := by
  cases outcome with
  | none => exact advances_fails h
  | some y => exact ⟨[none], .failed op (some y), .single (.failsBehind p h), rfl, ⟨_, rfl⟩⟩

theorem advances_raised (h : t.status p = .called op) : Advances p t t.shared (raised op) := by
  cases op with
  | load => exact advances_fails h
  | _ => exact advances_still h

/-- A call that has read what the atomic store holds. -/
theorem advances_loaded (h : t.status p = .called op) :
    Advances p t t.shared (loaded t.shared op) := by
  cases op with
  | load => exact advances_performs h (.load t.shared) rfl
  | compareAndSwapRefreshToken expected replacement =>
    simp only [loaded]
    split_ifs with hne
    · refine advances_performs h (.swap _ _ _ _ false ?_) rfl
      rw [MemoryTokenStore.compareAndSwapRefreshToken, if_pos hne]
    · exact advances_still h
  | _ => exact advances_still h

/-- A call that has replaced the file. -/
theorem advances_saved {token : OAuthToken} (h : t.status p = .called op)
    (hwritten : op.written = some token) (hexpects : Expects (.replacing op token) t.shared) :
    Advances p t (some token) (saved op) := by
  cases op with
  | save token' =>
    cases hwritten
    exact advances_performs h (.save _ token) rfl
  | compareAndSwapRefreshToken expected replacement =>
    cases hwritten
    refine advances_performs h (.swap _ _ _ _ true ?_) rfl
    have hmatches : t.shared.bind OAuthToken.refreshToken = expected := hexpects
    exact if_neg (not_not.2 hmatches)
  | _ => cases hwritten

/-- A step in the lock. -/
theorem Turn.advances {act : Act} (h : Turn stage act x stage')
    (hstatus : StatusOf stage (t.status p)) : Advances p t t.shared stage' := by
  cases h with
  | waits | closes | crashes => exact advances_still hstatus
  | entered op =>
    apply advances_still
    cases op <;> exact hstatus
  | timeout | raises => exact advances_fails hstatus
  | leaves op outcome =>
    cases outcome with
    | none => exact advances_fails hstatus
    | some y => exact advances_still hstatus
  | leavesRaising => exact advances_failsLeaving hstatus

/-- **A step on the file** is one of the atomic store, or none. -/
theorem Works.advances (h : Works codec x v v') (hcodec : codec.Faithful)
    (hfile : codec.Holds v.file t.shared) (hstatus : StatusOf v.stage (t.status p))
    (hsound : StageSound codec (fun _ => True) v.temp v.stage) (hfits : Fits v.stage x)
    (hexpects : Expects v.stage t.shared) :
    ∃ held, codec.Holds v'.file held ∧ Advances p t held v'.stage ∧
      Expects v'.stage held ∧ Fits v'.stage x ∧
      (held ≠ t.shared → x = .inside) := by
  cases h with
  | absent op temp hrun =>
    have hnone : t.shared = none := by
      cases hshared : t.shared with
      | none => rfl
      | some token =>
        rw [hshared] at hfile
        exact hfile.elim
    refine ⟨t.shared, hfile, ?_, ?_, fits_loaded hrun, fun hne => absurd rfl hne⟩
    · rw [← hnone]
      exact advances_loaded hstatus
    · rw [← hnone]
      exact expects_loaded
  | read op bytes temp token hrun hdecode =>
    have hsome : t.shared = some token := by
      cases hshared : t.shared with
      | none =>
        rw [hshared] at hfile
        exact hfile.elim
      | some token' =>
        rw [hshared] at hfile
        rw [hcodec token' bytes hfile] at hdecode
        exact hdecode
    refine ⟨t.shared, hfile, ?_, ?_, fits_loaded hrun, fun hne => absurd rfl hne⟩
    · rw [← hsome]
      exact advances_loaded hstatus
    · rw [← hsome]
      exact expects_loaded
  | present op bytes temp hrun =>
    exact ⟨t.shared, hfile, advances_still hstatus, trivial, .inl hrun, fun hne => absurd rfl hne⟩
  | garbled op bytes temp hrun hdecode =>
    exact ⟨t.shared, hfile, advances_raised hstatus, expects_raised, fits_raised hrun,
      fun hne => absurd rfl hne⟩
  | create op token file temp encoded hrun hencode =>
    exact ⟨t.shared, hfile, advances_still hstatus, by cases op <;> exact hexpects, hfits,
      fun hne => absurd rfl hne⟩
  | write op token file bytes piece rest hrun =>
    exact ⟨t.shared, hfile, advances_still hstatus, by cases op <;> exact hexpects, hfits,
      fun hne => absurd rfl hne⟩
  | close op token file temp hrun =>
    exact ⟨t.shared, hfile, advances_still hstatus, by cases op <;> exact hexpects, hfits,
      fun hne => absurd rfl hne⟩
  | replace op token file bytes hrun =>
    have hinside := runs_inside hrun hfits.2
    exact ⟨some token, hsound.2 bytes rfl, advances_saved hstatus hfits.2 hexpects, expects_saved,
      fits_saved hinside, fun _ => hinside⟩
  | replaceRaises op token file temp hrun =>
    exact ⟨t.shared, hfile, advances_still hstatus, trivial, .inl hrun, fun hne => absurd rfl hne⟩
  | discard op file temp hrun =>
    exact ⟨t.shared, hfile, advances_raised hstatus, expects_raised, fits_raised hrun,
      fun hne => absurd rfl hne⟩
  | raises op stage file temp hrun hstage =>
    have hcalled : t.status p = .called op := by
      cases stage <;> first | exact hstage.elim | (obtain rfl := hstage; exact hstatus)
    exact ⟨t.shared, hfile, advances_raised hcalled, expects_raised, fits_raised hrun,
      fun hne => absurd rfl hne⟩

end

/-! ## Steps -/

section
variable {op : TokenOp} {x : Place} {held : MemoryTokenStore.Stored} {act : Act}
  {stage stage' : Stage} {codec : TokenCodec} {v v' : View}

theorem fits_crashed (h : Fits stage x) : Fits stage .crashed := by
  cases stage with
  | idle | checking | reading | cleaning | returning => exact .inr rfl
  | locking op => exact ⟨h.1, by simp, by simp⟩
  | creating | writing | replacing => exact ⟨.inr rfl, h.2⟩
  | leaving => exact .inr (.inr rfl)

theorem Turn.fits {y : Place} (h : Turn stage act x stage') (hstage : Fits stage y)
    (hclosing : x = .closing → y = .inside) : Fits stage' x := by
  cases h with
  | waits op act x hinside houtside =>
    exact ⟨hstage.1, hinside, fun hx => hstage.2.1 (hclosing hx)⟩
  | entered op => exact fits_entered hstage.1
  | timeout | raises | leaves | leavesRaising => exact .inl rfl
  | closes => exact .inr (.inl rfl)
  | crashes => exact fits_crashed hstage

theorem Turn.expects (h : Turn stage act x stage') (hx : x = .inside) : Expects stage' held := by
  cases h with
  | waits op act x hinside houtside => exact absurd hx hinside
  | entered op => exact expects_entered
  | _ => cases hx

/-- A call that is on the file without the lock has not come to write. -/
theorem Works.expected (h : Works codec x v v') (hfits : Fits v.stage x)
    (hinside : x = .inside → Expects v.stage held) : Expects v.stage held := by
  by_cases hx : x = .inside
  · exact hinside hx
  · cases h with
    | create op token _ _ _ hrun | write op token _ _ _ _ hrun | close op token _ _ hrun
    | replace op token _ _ hrun | replaceRaises op token _ _ hrun =>
      exact absurd (runs_inside hrun hfits.2) hx
    | raises op stage _ _ hrun hstage =>
      cases stage with
      | creating op' token | writing op' token rest =>
        obtain rfl : op' = op := hstage
        exact absurd (runs_inside hrun hfits.2) hx
      | _ => trivial
    | _ => trivial

end

/-- A call leaves the lock by its `__exit__`. -/
theorem inside_of_closing {P : Type} [DecidableEq P] {procs : Processes P} {p : P} {act : Act}
    {w w' : TokenFileLock.World P} (h : TokenFileLock.World.Step procs w (.act p act) w')
    (hclosing : w'.place p = .closing) : w.place p = .inside := by
  cases h with
  | looks p act x h =>
    rw [World.move_place_self] at hclosing
    subst hclosing
    exact (h.holds trivial).1
  | openFile | writePid | replace | unlink => simp [World.move] at hclosing

namespace World

variable {P : Type} [DecidableEq P] {codec : TokenCodec} {procs : Processes P}
  {s s' : World P} {l : Label P} {t : Store P} {p : P}

/-- A step before which no process sits on a lock file without pid, and which takes away no lock file
that is not stale. -/
def CarefulStep (codec : TokenCodec) (procs : Processes P) (s : World P) (l : Label P)
    (s' : World P) : Prop :=
  Step codec procs s l s' ∧ s.lock.Prompt ∧ ∀ l', l = .lock l' → s.lock.TakesStale procs l'

/-- The file holds what the atomic store holds, and the calls are where its callers are. -/
structure Refines (codec : TokenCodec) (procs : Processes P) (s : World P) (t : Store P) : Prop where
  whole : s.Whole codec fun _ => True
  held : s.lock.Held procs
  file : codec.Holds s.file t.shared
  fits : ∀ p, Fits (s.stage p) (s.lock.place p)
  status : ∀ p, StatusOf (s.stage p) (t.status p)
  expects : ∀ p, s.lock.place p = .inside → Expects (s.stage p) t.shared

omit [DecidableEq P] in
theorem Refines.initial {stored : MemoryTokenStore.Stored} (hs : s.Initial codec stored) :
    s.Refines codec procs (.quiet stored) where
  whole := by
    refine ⟨⟨stored, hs.file, trivial⟩, fun p => ?_⟩
    rw [hs.stage p]
    trivial
  held := hs.lock.held
  file := hs.file
  fits p := by
    rw [hs.stage p]
    exact .inl (hs.lock.outside p)
  status p := by
    rw [hs.stage p]
    rfl
  expects p _ := by
    rw [hs.stage p]
    trivial

/-- One call goes on, on a lock whose other places are as they were. -/
theorem Refines.turn {s₁ : World P} {stage : Stage} {held : MemoryTokenStore.Stored}
    {status : Status TokenOp TokenOp.Answer} (hs : s.Refines codec procs t)
    (hwhole : s₁.Whole codec fun _ => True) (hheld : s₁.lock.Held procs)
    (hfile : codec.Holds s₁.file held) (hstage : s₁.stage = Function.update s.stage p stage)
    (hplace : ∀ q, q ≠ p → s₁.lock.place q = s.lock.place q)
    (hstatus : StatusOf stage status) (hfits : Fits stage (s₁.lock.place p))
    (hexpects : s₁.lock.place p = .inside → Expects stage held)
    (hothers : held ≠ t.shared → s₁.lock.place p = .inside) :
    s₁.Refines codec procs { t.turn p status with shared := held } := by
  have hself : s₁.stage p = stage := by
    rw [hstage]
    exact Function.update_self _ _ _
  have hother : ∀ q, q ≠ p → s₁.stage q = s.stage q := by
    intro q hq
    rw [hstage]
    exact Function.update_of_ne hq _ _
  refine ⟨hwhole, hheld, hfile, fun q => ?_, fun q => ?_, fun q hinside => ?_⟩
  · by_cases hq : q = p
    · subst hq
      rw [hself]
      exact hfits
    · rw [hother q hq, hplace q hq]
      exact hs.fits q
  · by_cases hq : q = p
    · subst hq
      rw [hself]
      simpa [Atomic.turn] using hstatus
    · rw [hother q hq]
      simpa [Atomic.turn, Function.update_of_ne hq] using hs.status q
  · by_cases hq : q = p
    · subst hq
      rw [hself]
      exact hexpects hinside
    · rw [hother q hq]
      -- two calls are never inside, so that nothing has changed for this one
      have hsame : held = t.shared := by
        by_contra hne
        exact hq (hheld.exclusive q p hinside (hothers hne))
      rw [hplace q hq] at hinside
      rw [hsame]
      exact hs.expects q hinside

/-- **A careful step** is matched by the atomic store. -/
theorem fileTokenStore_refines (hcodec : codec.Faithful) :
    Simulates (CarefulStep codec procs) Label.shows (Atomic.Step Effect) id
      (Refines codec procs) := by
  intro s l s' t hcareful hs
  obtain ⟨hstep, hprompt, hstale⟩ := hcareful
  have hwhole : s'.Whole codec fun _ => True := hstep.whole hcodec (fun _ _ _ _ _ => trivial) hs.whole
  cases hstep with
  | tick w h =>
    refine ⟨[], t, .nil t, rfl, hwhole, ?_, hs.file, fun p => ?_, hs.status, fun p hinside => ?_⟩
    · exact TokenFileLock.World.step_held h hprompt (hstale _ rfl) hs.held
    · have hplace : w.place p = s.lock.place p := h.place_ne fun act => by simp
      show Fits (s.stage p) (w.place p)
      rw [hplace]
      exact hs.fits p
    · have hplace : w.place p = s.lock.place p := h.place_ne fun act => by simp
      rw [hplace] at hinside
      exact hs.expects p hinside
  | lock p act w stage h hturn =>
    obtain ⟨ls, status, hpath, hls, hstatus⟩ := hturn.advances (hs.status p)
    refine ⟨ls, _, hpath, hls, hs.turn hwhole ?_ hs.file rfl ?_ hstatus ?_ ?_ ?_⟩
    · exact TokenFileLock.World.step_held h hprompt (hstale _ rfl) hs.held
    · intro q hq
      refine h.place_ne fun act' hlabel => ?_
      cases hlabel
      exact hq rfl
    · exact hturn.fits (hs.fits p) (inside_of_closing h)
    · exact hturn.expects
    · exact fun hne => absurd rfl hne
  | work p v h =>
    obtain ⟨held, hfile, ⟨ls, status, hpath, hls, hstatus⟩, hexpects, hfits, hinside⟩ :=
      h.advances hcodec hs.file (hs.status p) (hs.whole.stage p) (hs.fits p)
        (h.expected (hs.fits p) (hs.expects p))
    exact ⟨ls, _, hpath, hls, hs.turn hwhole hs.held hfile rfl (fun _ _ => rfl) hstatus hfits
      (fun _ => hexpects) hinside⟩
  | calls p op hop hplace hstage =>
    have hidle := hs.status p
    rw [hstage] at hidle
    refine ⟨_, _, .single (.calls p op hidle), rfl,
      hs.turn hwhole hs.held hs.file rfl (fun _ _ => rfl) (status_begun op) ?_ ?_ ?_⟩
    · show Fits (begun op) (s.lock.place p)
      rw [hplace]
      exact fits_begun hop
    · exact fun _ => expects_begun
    · exact fun hne => absurd rfl hne
  | returns p op x hplace hstage =>
    have hanswered := hs.status p
    rw [hstage] at hanswered
    exact ⟨_, _, .single (.returns p x hanswered), rfl,
      hs.turn hwhole hs.held hs.file rfl (fun _ _ => rfl) rfl (.inl hplace) (fun _ => trivial)
        fun hne => absurd rfl hne⟩
  | raises p op hplace hstage =>
    have hfailed := hs.status p
    rw [hstage] at hfailed
    obtain ⟨effect, hfailed⟩ := hfailed
    exact ⟨_, _, .single (.raises p hfailed), rfl,
      hs.turn hwhole hs.held hs.file rfl (fun _ _ => rfl) rfl (.inl hplace) (fun _ => trivial)
        fun hne => absurd rfl hne⟩

end World

/-- **The store in a file is linearizable.** In every run of careful steps, the calls, what they return
and where they raise are those of a run of the store whose operations take effect in one step, each
between its call and its end; and the file holds what that store holds. -/
theorem fileTokenStore_linearizable {P : Type} [DecidableEq P] {codec : TokenCodec}
    {procs : Processes P} {stored : MemoryTokenStore.Stored} {start s : World P}
    {ls : List (Label P)} (hcodec : codec.Faithful) (hstart : start.Initial codec stored)
    (hrun : Path (World.CarefulStep codec procs) start ls s) :
    ∃ interactions, ∃ t : Store P, Path (Atomic.Step Effect) (.quiet stored) interactions t ∧
      interactions.filterMap id = ls.filterMap Label.shows ∧
      codec.Holds s.file t.shared := by
  obtain ⟨interactions, t, hpath, hshows, hrefines⟩ :=
    (World.fileTokenStore_refines hcodec).path hrun (World.Refines.initial hstart)
  exact ⟨interactions, t, hpath, hshows, hrefines.file⟩

/-! ## One save -/

/-- A label at which no time passes and no lock file is taken away. -/
def Label.Plain {P : Type} : Label P → Prop
  | .lock l => l ≠ .tick ∧ ∀ p, l ≠ .act p .replace
  | _ => True

/-- As long as time stands still and nobody takes the lock away, steps are careful. -/
theorem World.Step.careful {P : Type} [DecidableEq P] {codec : TokenCodec} {procs : Processes P}
    {s s' : World P} {l : Label P} (h : World.Step codec procs s l s') (hl : l.Plain)
    (hs : s.lock.Instant) : World.CarefulStep codec procs s l s' ∧ s'.lock.Instant := by
  refine ⟨⟨h, hs.prompt, ?_⟩, ?_⟩
  · rintro l' rfl p f hreplace
    exact absurd hreplace (hl.2 p)
  · cases h with
    | tick => exact absurd rfl hl.1
    | lock p act w stage h hturn => exact World.step_instant h hl.1 hs
    | work | calls | returns | raises => exact hs

/-- All the bytes are written at once. -/
theorem Works.writeAll {codec : TokenCodec} {x : Place} {op : TokenOp} {token : OAuthToken}
    {file : Option (List UInt8)} {bytes : List UInt8} (hrun : Runs op x) :
    Works codec x ⟨file, some [], .writing op token bytes⟩
      ⟨file, some bytes, .writing op token []⟩ := by
  have hwrite := @Works.write codec x op token file [] bytes [] hrun
  rwa [List.append_nil, List.nil_append] at hwrite

theorem storedOnce_instant {P : Type} : (storedOnce : World P).lock.Instant := by
  rintro p created ⟨⟩

theorem fileTokenStore_linearizable_save : ∃ ls : List (Label Unit), ∃ s : World Unit,
    ∃ interactions, ∃ t : Store Unit,
      Path (Atomic.Step Effect) (.quiet (some oldToken)) interactions t ∧
        interactions.filterMap id = ls.filterMap Label.shows ∧
        plainTextCodec.Holds s.file t.shared := by
  have hrun : ∃ s, Path (World.Step plainTextCodec oneCaller) storedOnce
      [.calls () (.save newToken), .lock (.act () .enter), .lock (.act () .openFile),
        .lock (.act () .writePid), .work (), .work (), .work (), .work (), .lock (.act () .close),
        .lock (.act () .unlink), .returns () (.save newToken) ()] s :=
    ⟨_,
      .cons (.calls _ () (.save newToken) trivial rfl rfl) <|
      .cons (.lock _ () _ _ _ (.looks _ () _ _ (.enter 10)) (.waits _ _ _ (by simp) (by simp))) <|
      .cons (.lock _ () _ _ _ (.openFile _ () _ rfl rfl) (.waits _ _ _ (by simp) (by simp))) <|
      .cons (.lock _ () _ _ _ (.writePid _ () _ rfl) (.entered _)) <|
      .cons (.work _ () _ (.create _ newToken _ _ newText rfl (by simp [plainTextCodec, plainTexts]))) <|
      .cons (.work _ () _ (.writeAll rfl)) <|
      .cons (.work _ () _ (.close _ newToken _ _ rfl)) <|
      .cons (.work _ () _ (.replace _ newToken _ _ rfl)) <|
      .cons (.lock _ () _ _ _ (.looks _ () _ _ .close) (.closes _ _)) <|
      .cons (.lock _ () _ _ _ (.unlink _ () rfl) (.leaves _ _)) <|
      .cons (.returns _ () (.save newToken) () rfl rfl) <| .nil _⟩
  obtain ⟨s, hrun⟩ := hrun
  have hcareful := hrun.refine Label.Plain (by simp [Label.Plain])
    (fun hstep hl hs => hstep.careful hl hs) storedOnce_instant
  exact ⟨_, s, fileTokenStore_linearizable plainTextCodec_faithful storedOnce_initial hcareful⟩

end TradeStation.FileTokenStore
