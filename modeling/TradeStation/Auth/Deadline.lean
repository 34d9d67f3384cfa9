import TradeStation.Auth.Exclusion

/-!
# The deadline of the token-store lock

The loop of `__enter__` has two ways round. Behind a lock that it may not take it looks at the clock;
behind one that it has taken, or that has gone, it does not, and tries to create the file again.

* `Turn` lists what one step of the loop does once the deadline is reached, whatever is done to the
  lock path in between.
* `enter_endsInTime`: as long as a lock that is looked at behind an attempt made after the deadline is
  not stale, that attempt is the last one, and the loop ends within eleven steps of its own.
* `exists_attempts`: otherwise there is no bound.
-/

namespace TradeStation.TokenFileLock

open Foundations

/-- In the loop of `__enter__` with that deadline. -/
def Place.InLoop (deadline : ℚ) : Place → Prop
  | .opening d | .reading d | .checking d _ | .statting d | .comparing d _ | .stealing d
  | .discarding d | .refused d => d = deadline
  | .writing _ => True
  | _ => False

/-- The call is one of `os.open`. -/
def Act.isAttempt : Act → Bool
  | .openFile | .openExists => true
  | _ => false

/-- At `os.replace`, behind a test that found the lock stale. -/
def Place.Steals : Place → Prop
  | .stealing _ => True
  | _ => False

namespace World

variable {P : Type} (procs : Processes P)

/-- The lock, as the process looks at it next, is not stale: the process with the pid that was read
runs, the file is there, and it is young. -/
def FindsLive (s : World P) (p : P) : Prop :=
  match s.place p with
  | .checking _ pid => ¬s.NotRunning procs pid
  | .statting _ => s.lock ≠ none
  | .comparing _ modifiedAt => s.aged modifiedAt = false
  | _ => True

variable [DecidableEq P]

/-- A step of the system, or anything that is done to the lock path from outside. -/
inductive Disturbed : World P → Option (Label P) → World P → Prop
  | step {s s' : World P} {l : Label P} (h : Step procs s l s') : Disturbed s (some l) s'
  | disturb (s : World P) (lock : Option (LockFile P)) : Disturbed s none { s with lock }

end World

/-- A step of this process. -/
def isOwn {P : Type} [DecidableEq P] (p : P) : Option (Label P) → Bool
  | some (.act q _) => p = q
  | _ => false

/-- An attempt of this process to create the file. -/
def isAttempt {P : Type} [DecidableEq P] (p : P) : Option (Label P) → Bool
  | some (.act q act) => p = q ∧ act.isAttempt = true
  | _ => false

/-- The system while a process is in `__enter__` past its deadline, and whether the process has since
tried to create the file. -/
structure Visit (P : Type) where
  world : World P
  attempted : Bool

namespace Visit

variable {P : Type} [DecidableEq P] (procs : Processes P) (p : P) (deadline : ℚ)

/-- A step that finds the process in the loop. -/
structure Step (s : Visit P) (l : Option (Label P)) (s' : Visit P) : Prop where
  inLoop : (s.world.place p).InLoop deadline
  step : World.Disturbed procs s.world l s'.world
  attempted : s'.attempted = (s.attempted || isAttempt p l)

/-- The operating system answers the process as the code expects, and behind an attempt the lock that it
looks at is not stale. -/
structure Regular (s : Visit P) (l : Option (Label P)) : Prop where
  expected : ∀ act, l = some (.act p act) → act ≠ .raises ∧ act ≠ .crashes
  live : s.attempted = true → s.world.FindsLive procs p

end Visit

/-- **The loop ends in time**, on a run from the deadline on: it makes one attempt at most and eleven
steps of its own, and when it ends the process holds the lock, or has raised `ConfigurationError`
behind its last look at the clock. Until then it can always go on. -/
structure EndsInTime {P : Type} [DecidableEq P] (procs : Processes P) (p : P) (deadline : ℚ)
    (ls : List (Option (Label P))) (s' : World P) : Prop where
  attempts : ls.countP (isAttempt p) ≤ 1
  steps : ls.countP (isOwn p) ≤ 11
  ends : (s'.place p).InLoop deadline ∧
      (∃ act s'', act ≠ .raises ∧ act ≠ .crashes ∧ World.Step procs s' (.act p act) s'') ∨
    s'.place p = .inside ∨
    s'.place p = .outside ∧ ls.getLast? = some (some (.act p .monotonic))

/-! ## One turn of the loop -/

/-- A step of the loop past its deadline. -/
inductive Turn (deadline : ℚ) : Place → Act → Place → Prop
  | created (created : ℚ) : Turn deadline (.opening deadline) .openFile (.writing created)
  | taken : Turn deadline (.opening deadline) .openExists (.reading deadline)
  | written (created : ℚ) : Turn deadline (.writing created) .writePid .inside
  | readPid (pid : ℤ) : Turn deadline (.reading deadline) .readPid (.checking deadline pid)
  | readNone : Turn deadline (.reading deadline) .readPid (.statting deadline)
  | readFails : Turn deadline (.reading deadline) .readFails (.statting deadline)
  | running (pid : ℤ) : Turn deadline (.checking deadline pid) .kill (.refused deadline)
  | notRunning (pid : ℤ) : Turn deadline (.checking deadline pid) .kill (.stealing deadline)
  | stat (modifiedAt : ℚ) : Turn deadline (.statting deadline) .stat (.comparing deadline modifiedAt)
  | statMissing : Turn deadline (.statting deadline) .stat (.stealing deadline)
  | statFails : Turn deadline (.statting deadline) .statFails (.refused deadline)
  | stale (modifiedAt : ℚ) : Turn deadline (.comparing deadline modifiedAt) .time (.stealing deadline)
  | fresh (modifiedAt : ℚ) : Turn deadline (.comparing deadline modifiedAt) .time (.refused deadline)
  | replaced : Turn deadline (.stealing deadline) .replace (.discarding deadline)
  | replaceMissing : Turn deadline (.stealing deadline) .replaceFails (.opening deadline)
  | replaceFails : Turn deadline (.stealing deadline) .replaceFails (.refused deadline)
  | unlinked : Turn deadline (.discarding deadline) .unlinkStolen (.opening deadline)
  | timeout : Turn deadline (.refused deadline) .monotonic .outside

namespace World

variable {P : Type} {procs : Processes P} {s s' : World P} {p : P} {deadline : ℚ}

/-- Past the deadline there is no other step of the loop that the code expects. -/
theorem Looks.turn {act : Act} {x y : Place} (h : s.Looks procs act x y)
    (hloop : x.InLoop deadline) (hlate : deadline ≤ s.clock) (hraises : act ≠ .raises)
    (hcrashes : act ≠ .crashes) : Turn deadline x act y := by
  cases h with
  | enter => exact hloop.elim
  | close => exact hloop.elim
  | raises => exact absurd rfl hraises
  | crashes => exact absurd rfl hcrashes
  | retry d h =>
    obtain rfl : d = deadline := hloop
    exact absurd hlate (not_le.2 h)
  | _ =>
    obtain rfl := hloop
    constructor

variable [DecidableEq P]

/-- A step of the process past its deadline is a turn of the loop. -/
theorem Step.turn {act : Act} (h : Step procs s (.act p act) s')
    (hloop : (s.place p).InLoop deadline) (hlate : deadline ≤ s.clock) (hraises : act ≠ .raises)
    (hcrashes : act ≠ .crashes) : Turn deadline (s.place p) act (s'.place p) := by
  cases h with
  | looks _ _ x hlooks =>
    rw [move_place_self]
    exact hlooks.turn hloop hlate hraises hcrashes
  | openFile _ d hplace hlock =>
    rw [hplace] at hloop ⊢
    obtain rfl := hloop
    change Turn _ _ _ ((s.move p (.writing s.clock)).place p)
    rw [move_place_self]
    constructor
  | writePid _ created hplace =>
    rw [hplace]
    change Turn _ _ _ ((s.move p .inside).place p)
    rw [move_place_self]
    constructor
  | replace _ d f hplace hlock =>
    rw [hplace] at hloop ⊢
    obtain rfl := hloop
    change Turn _ _ _ ((s.move p (.discarding d)).place p)
    rw [move_place_self]
    constructor
  | unlink _ hplace =>
    rw [hplace] at hloop
    exact hloop.elim

/-- A lock that is not stale is not taken. -/
theorem Step.not_steals {act : Act} (h : Step procs s (.act p act) s') (hlive : s.FindsLive procs p) :
    ¬(s'.place p).Steals := by
  unfold FindsLive at hlive
  cases h with
  | looks _ _ x hlooks =>
    rw [move_place_self]
    generalize s.place p = y at hlooks hlive
    cases hlooks with
    | notRunning d pid h => exact absurd h hlive
    | statMissing d h => exact absurd h hlive
    | stale d modifiedAt h =>
      rw [hlive] at h
      cases h
    | _ => exact fun hsteals => hsteals
  | openFile _ d hplace hlock =>
    change ¬((s.move p (.writing s.clock)).place p).Steals
    rw [move_place_self]
    exact fun hsteals => hsteals
  | writePid _ created hplace =>
    change ¬((s.move p .inside).place p).Steals
    rw [move_place_self]
    exact fun hsteals => hsteals
  | replace _ d f hplace hlock =>
    change ¬((s.move p (.discarding d)).place p).Steals
    rw [move_place_self]
    exact fun hsteals => hsteals
  | unlink _ hplace =>
    change ¬((s.move p .outside).place p).Steals
    rw [move_place_self]
    exact fun hsteals => hsteals

/-- No step of another process, and nothing from outside, moves the process. -/
theorem Disturbed.frame {l : Option (Label P)} (h : Disturbed procs s l s')
    (hother : isOwn p l = false) : s'.place p = s.place p := by
  cases h with
  | disturb => rfl
  | step h =>
    cases h with
    | tick => rfl
    | looks q act x => exact move_place_ne x (by simpa [isOwn] using hother)
    | openFile q => exact move_place_ne _ (by simpa [isOwn] using hother)
    | writePid q => exact move_place_ne _ (by simpa [isOwn] using hother)
    | replace q => exact move_place_ne _ (by simpa [isOwn] using hother)
    | unlink q => exact move_place_ne _ (by simpa [isOwn] using hother)

/-- The clock does not go back. -/
theorem Disturbed.clock_le {l : Option (Label P)} (h : Disturbed procs s l s') :
    s.clock ≤ s'.clock := by
  cases h with
  | disturb => exact le_rfl
  | step h =>
    cases h with
    | tick _ h => exact h
    | _ => exact le_rfl

/-- In the loop there is always a way on. -/
theorem exists_step (hloop : (s.place p).InLoop deadline) :
    ∃ act s', act ≠ .raises ∧ act ≠ .crashes ∧ Step procs s (.act p act) s' := by
  have hlooks : ∀ {x : Place}, s.place p = x → ∀ (act : Act) {y : Place}, s.Looks procs act x y →
      act ≠ .raises → act ≠ .crashes →
      ∃ act s', act ≠ .raises ∧ act ≠ .crashes ∧ Step procs s (.act p act) s' := by
    rintro x rfl act y h hraises hcrashes
    exact ⟨act, _, hraises, hcrashes, .looks s p act y h⟩
  cases hplace : s.place p with
  | opening d =>
    cases hlock : s.lock with
    | none => exact ⟨.openFile, _, by simp, by simp, .openFile s p d hplace hlock⟩
    | some f => exact hlooks hplace .openExists (.openExists d f hlock) (by simp) (by simp)
  | writing created => exact ⟨.writePid, _, by simp, by simp, .writePid s p created hplace⟩
  | reading d => exact hlooks hplace .readFails (.readFails d) (by simp) (by simp)
  | checking d pid =>
    rcases lt_or_ge 0 pid with hpid | hpid
    · exact hlooks hplace .kill (.running d pid hpid) (by simp) (by simp)
    · exact hlooks hplace .kill (.notRunning d pid (.inl hpid)) (by simp) (by simp)
  | statting d => exact hlooks hplace .statFails (.statFails d) (by simp) (by simp)
  | comparing d modifiedAt =>
    cases haged : s.aged modifiedAt with
    | true => exact hlooks hplace .time (.stale d modifiedAt haged) (by simp) (by simp)
    | false => exact hlooks hplace .time (.fresh d modifiedAt haged) (by simp) (by simp)
  | stealing d => exact hlooks hplace .replaceFails (.replaceFails d) (by simp) (by simp)
  | discarding d => exact hlooks hplace .unlinkStolen (.unlinkStolen d) (by simp) (by simp)
  | refused d =>
    rcases lt_or_ge s.clock d with hearly | hlate
    · exact hlooks hplace .monotonic (.retry d hearly) (by simp) (by simp)
    · exact hlooks hplace .monotonic (.timeout d hlate) (by simp) (by simp)
  | outside =>
    rw [hplace] at hloop
    exact hloop.elim
  | inside =>
    rw [hplace] at hloop
    exact hloop.elim
  | closing =>
    rw [hplace] at hloop
    exact hloop.elim
  | crashed =>
    rw [hplace] at hloop
    exact hloop.elim

end World

/-! ## What is left -/

/-- How many steps the loop has left, where it takes no lock behind an attempt. -/
def Place.stepsLeft (attempted : Bool) : Place → ℕ
  | .writing _ | .refused _ => 1
  | .comparing _ _ | .checking _ _ => if attempted then 2 else 9
  | .statting _ => if attempted then 3 else 10
  | .reading _ => if attempted then 4 else 11
  | .opening _ => 6
  | .discarding _ => 7
  | .stealing _ => 8
  | _ => 0

/-- How many attempts. -/
def attemptsLeft (attempted : Bool) : ℕ := if attempted then 0 else 1

/-- Behind an attempt, the process is on its way out. -/
def Place.Behind (attempted : Bool) : Place → Prop
  | .opening _ | .stealing _ | .discarding _ => attempted = false
  | _ => True

theorem Place.stepsLeft_le (attempted : Bool) (x : Place) : x.stepsLeft attempted ≤ 11 := by
  cases x <;> cases attempted <;> simp [stepsLeft]

section
variable {deadline : ℚ} {x y : Place} {act : Act} {attempted : Bool}

theorem Turn.ends (h : Turn deadline x act y) :
    y.InLoop deadline ∨ y = .inside ∨ y = .outside ∧ act = .monotonic := by
  cases h with
  | written => exact .inr (.inl rfl)
  | timeout => exact .inr (.inr ⟨rfl, rfl⟩)
  | created => exact .inl trivial
  | _ => exact .inl rfl

theorem Turn.behind (h : Turn deadline x act y) (hx : x.Behind attempted)
    (hsteals : attempted = true → ¬y.Steals) : y.Behind (attempted || act.isAttempt) := by
  cases attempted with
  | false => cases h <;> trivial
  | true =>
    cases h with
    | notRunning => exact absurd trivial (hsteals rfl)
    | statMissing => exact absurd trivial (hsteals rfl)
    | stale => exact absurd trivial (hsteals rfl)
    | replaced => cases hx
    | replaceMissing => cases hx
    | unlinked => cases hx
    | _ => trivial

/-- A turn uses up a step. -/
theorem Turn.stepsLeft_lt (h : Turn deadline x act y) (hx : x.Behind attempted)
    (hsteals : attempted = true → ¬y.Steals) :
    y.stepsLeft (attempted || act.isAttempt) < x.stepsLeft attempted := by
  cases attempted with
  | false => cases h <;> simp [Place.stepsLeft, Act.isAttempt]
  | true =>
    cases h with
    | notRunning => exact absurd trivial (hsteals rfl)
    | statMissing => exact absurd trivial (hsteals rfl)
    | stale => exact absurd trivial (hsteals rfl)
    | replaced => cases hx
    | replaceMissing => cases hx
    | replaceFails => cases hx
    | created => cases hx
    | taken => cases hx
    | unlinked => cases hx
    | _ => simp [Place.stepsLeft]

/-- An attempt uses up the only one. -/
theorem Turn.attemptsLeft (h : Turn deadline x act y) (hx : x.Behind attempted) :
    attemptsLeft (attempted || act.isAttempt) + (if act.isAttempt then 1 else 0) =
      TokenFileLock.attemptsLeft attempted := by
  cases h with
  | created =>
    obtain rfl : attempted = false := hx
    rfl
  | taken =>
    obtain rfl : attempted = false := hx
    rfl
  | _ => cases attempted <;> rfl

end

/-! ## A run past the deadline -/

section
variable {P : Type} [DecidableEq P] {procs : Processes P} {p : P} {deadline : ℚ}

/-- What stays true in the loop past its deadline. -/
structure Visit.Late (p : P) (deadline : ℚ) (s : Visit P) : Prop where
  late : deadline ≤ s.world.clock
  behind : (s.world.place p).Behind s.attempted

/-- A step that meets the condition. -/
def Visit.RegularStep (procs : Processes P) (p : P) (deadline : ℚ) (s : Visit P)
    (l : Option (Label P)) (s' : Visit P) : Prop :=
  Visit.Step procs p deadline s l s' ∧ Visit.Regular procs p s l

variable {s s' : Visit P} {l : Option (Label P)} {ls : List (Option (Label P))}

/-- A step of the process is a turn of its loop, and any other leaves the process where it was. -/
theorem Visit.RegularStep.cases (h : Visit.RegularStep procs p deadline s l s')
    (hs : s.Late p deadline) :
    (isOwn p l = false ∧ isAttempt p l = false ∧ s'.world.place p = s.world.place p ∧
        s'.attempted = s.attempted) ∨
      ∃ act, l = some (.act p act) ∧ Turn deadline (s.world.place p) act (s'.world.place p) ∧
        s'.attempted = (s.attempted || act.isAttempt) ∧
        (s.attempted = true → ¬(s'.world.place p).Steals) := by
  obtain ⟨⟨hloop, hstep, hattempted⟩, hregular⟩ := h
  cases hown : isOwn p l with
  | false =>
    have hnot : isAttempt p l = false := by
      rcases l with _ | _ | ⟨q, act⟩
      · rfl
      · rfl
      · have hne : ¬p = q := by simpa [isOwn] using hown
        simp [isAttempt, hne]
    rw [hnot, Bool.or_false] at hattempted
    exact .inl ⟨rfl, hnot, hstep.frame hown, hattempted⟩
  | true =>
    rcases l with _ | _ | ⟨q, act⟩
    · cases hown
    · cases hown
    · obtain rfl : p = q := by simpa [isOwn] using hown
      obtain ⟨hraises, hcrashes⟩ := hregular.expected act rfl
      have hact : isAttempt p (some (.act p act)) = act.isAttempt := by simp [isAttempt]
      rw [hact] at hattempted
      cases hstep with
      | step hstep =>
        exact .inr ⟨act, rfl, hstep.turn hloop hs.late hraises hcrashes, hattempted,
          fun hbehind => hstep.not_steals (hregular.live hbehind)⟩

/-- **The step lemma.** A step keeps the process on its way out, and uses up what it takes. -/
theorem Visit.RegularStep.spends (h : Visit.RegularStep procs p deadline s l s')
    (hs : s.Late p deadline) :
    s'.Late p deadline ∧
      attemptsLeft s'.attempted + (if isAttempt p l then 1 else 0) = attemptsLeft s.attempted ∧
      (s'.world.place p).stepsLeft s'.attempted + (if isOwn p l then 1 else 0) ≤
        (s.world.place p).stepsLeft s.attempted ∧
      ((s'.world.place p).InLoop deadline ∨ s'.world.place p = .inside ∨
        s'.world.place p = .outside ∧ l = some (.act p .monotonic)) := by
  have hlate : deadline ≤ s'.world.clock := hs.late.trans h.1.step.clock_le
  rcases h.cases hs with ⟨hown, hnot, hplace, hattempted⟩ | ⟨act, rfl, hturn, hattempted, hsteals⟩
  · rw [hown, hnot]
    refine ⟨⟨hlate, ?_⟩, ?_, ?_, .inl ?_⟩
    · rw [hplace, hattempted]
      exact hs.behind
    · rw [hattempted]
      rfl
    · rw [hplace, hattempted]
      exact le_rfl
    · rw [hplace]
      exact h.1.inLoop
  · have hown : isOwn p (some (.act p act)) = true := by simp [isOwn]
    have hact : isAttempt p (some (.act p act)) = act.isAttempt := by simp [isAttempt]
    rw [hown, hact, hattempted]
    refine ⟨⟨hlate, ?_⟩, hturn.attemptsLeft hs.behind, ?_, ?_⟩
    · rw [hattempted]
      exact hturn.behind hs.behind hsteals
    · exact hturn.stepsLeft_lt hs.behind hsteals
    · rcases hturn.ends with hloop | hinside | ⟨houtside, rfl⟩
      · exact .inl hloop
      · exact .inr (.inl hinside)
      · exact .inr (.inr ⟨houtside, rfl⟩)

/-- **The run lemma.** -/
theorem Visit.spends_of_path (h : Path (Visit.RegularStep procs p deadline) s ls s')
    (hs : s.Late p deadline) :
    attemptsLeft s'.attempted + ls.countP (isAttempt p) = attemptsLeft s.attempted ∧
      (s'.world.place p).stepsLeft s'.attempted + ls.countP (isOwn p) ≤
        (s.world.place p).stepsLeft s.attempted := by
  induction h with
  | nil => exact ⟨rfl, le_rfl⟩
  | cons head tail ih =>
    obtain ⟨hlate, hattempts, hsteps, -⟩ := head.spends hs
    obtain ⟨hattempts', hsteps'⟩ := ih hlate
    rw [List.countP_cons, List.countP_cons]
    omega

theorem Visit.ends_of_path (h : Path (Visit.RegularStep procs p deadline) s ls s')
    (hs : s.Late p deadline) (hloop : (s.world.place p).InLoop deadline) :
    (s'.world.place p).InLoop deadline ∨ s'.world.place p = .inside ∨
      s'.world.place p = .outside ∧ ls.getLast? = some (some (.act p .monotonic)) := by
  induction h with
  | nil => exact .inl hloop
  | cons head tail ih =>
    obtain ⟨hlate, -, -, hends⟩ := head.spends hs
    cases tail with
    | nil =>
      rcases hends with hloop | hinside | ⟨houtside, rfl⟩
      · exact .inl hloop
      · exact .inr (.inl hinside)
      · exact .inr (.inr ⟨houtside, rfl⟩)
    | cons next rest =>
      rw [List.getLast?_cons_cons]
      exact ih hlate next.1.inLoop

/-- **Past its deadline the loop ends in time**, on every run on which no lock that the process looks at
behind an attempt is stale, and the operating system answers it as the code expects. -/
theorem enter_endsInTime {w : World P} (hloop : (w.place p).InLoop deadline)
    (hlate : deadline ≤ w.clock)
    (hrun : Path (Visit.RegularStep procs p deadline) ⟨w, false⟩ ls s') :
    EndsInTime procs p deadline ls s'.world := by
  have hs : Visit.Late p deadline ⟨w, false⟩ := by
    refine ⟨hlate, ?_⟩
    cases w.place p <;> trivial
  obtain ⟨hattempts, hsteps⟩ := Visit.spends_of_path hrun hs
  have hone : attemptsLeft (Visit.mk w false).attempted = 1 := rfl
  have hbound := Place.stepsLeft_le (Visit.mk w false).attempted ((Visit.mk w false).world.place p)
  refine ⟨by omega, by omega, ?_⟩
  rcases Visit.ends_of_path hrun hs hloop with hstill | hend
  · exact .inl ⟨hstill, World.exists_step hstill⟩
  · exact .inr hend

end

/-! ## One process -/

/-- A process by itself. -/
def solo : Processes Unit := ⟨fun _ => 1, fun _ => by decide⟩

/-- It is at that place, at time zero. -/
def soloAt (lock : Option (LockFile Unit)) (x : Place) : World Unit := ⟨0, lock, fun _ => x⟩

theorem move_soloAt (lock : Option (LockFile Unit)) (x y : Place) :
    (soloAt lock x).move () y = soloAt lock y := by
  have hplace : Function.update (fun _ : Unit => x) () y = fun _ => y := by
    funext p
    rw [Subsingleton.elim p (), Function.update_self]
  rw [World.move, soloAt, hplace, soloAt]

theorem visit_looks {lock : Option (LockFile Unit)} {x y : Place} {act : Act} (attempted : Bool)
    (h : (soloAt lock x).Looks solo act x y) (hloop : x.InLoop 0) :
    Visit.Step solo () 0 ⟨soloAt lock x, attempted⟩ (some (.act () act))
      ⟨soloAt lock y, attempted || act.isAttempt⟩ := by
  refine ⟨hloop, .step ?_, ?_⟩
  · rw [← move_soloAt lock x y]
    exact .looks _ _ _ _ h
  · simp [isAttempt]

/-- A lock file of a process that does not run. -/
def deadLock : LockFile Unit := ⟨none, some 2, 0⟩

/-- Somebody leaves a lock behind and the process takes it away, all past the deadline. -/
theorem visit_round (attempted : Bool) :
    Path (Visit.Step solo () 0) ⟨soloAt none (.opening 0), attempted⟩
      [none, some (.act () .openExists), some (.act () .readPid), some (.act () .kill),
        some (.act () .replace), some (.act () .unlinkStolen)]
      ⟨soloAt none (.opening 0), true⟩ := by
  have hdead : (soloAt (some deadLock) (.checking 0 2)).NotRunning solo 2 := by
    refine .inr fun p hp => ?_
    have hpid : (1 : ℤ) = 2 := hp
    omega
  have hreplace : Visit.Step solo () 0 ⟨soloAt (some deadLock) (.stealing 0), true⟩
      (some (.act () .replace)) ⟨soloAt none (.discarding 0), true⟩ := by
    refine ⟨rfl, .step ?_, rfl⟩
    have htaken : { (soloAt (some deadLock) (.stealing 0)).move () (.discarding 0) with lock := none } =
        soloAt none (.discarding 0) := by
      rw [move_soloAt]
      rfl
    rw [← htaken]
    exact .replace _ () 0 deadLock rfl rfl
  have hleft : Visit.Step solo () 0 ⟨soloAt none (.opening 0), attempted⟩ none
      ⟨soloAt (some deadLock) (.opening 0), attempted⟩ :=
    ⟨rfl, .disturb _ (some deadLock), by simp [isAttempt]⟩
  apply Path.cons hleft
  apply Path.cons (visit_looks attempted (.openExists 0 deadLock rfl) rfl)
  rw [Act.isAttempt, Bool.or_true]
  apply Path.cons (visit_looks true (.readPid 0 deadLock 2 rfl rfl) rfl)
  apply Path.cons (visit_looks true (.notRunning 0 2 hdead) rfl)
  apply Path.cons hreplace
  exact Path.single (visit_looks true (.unlinkStolen 0) rfl)

/-- **Past its deadline the loop makes any number of attempts**, if other processes go on to leave
their locks behind. -/
theorem exists_attempts (n : ℕ) (attempted : Bool) : ∃ ls attempted',
    Path (Visit.Step solo () 0) ⟨soloAt none (.opening 0), attempted⟩ ls
        ⟨soloAt none (.opening 0), attempted'⟩ ∧
      ls.countP (isAttempt ()) = n := by
  induction n generalizing attempted with
  | zero => exact ⟨[], attempted, .nil _, rfl⟩
  | succ n ih =>
    obtain ⟨ls, attempted', hpath, hcount⟩ := ih true
    refine ⟨_, attempted', (visit_round attempted).append hpath, ?_⟩
    rw [List.countP_append, hcount, Nat.add_comm]
    rfl

/-- A process enters with a timeout of zero, and still makes its second attempt after it. -/
theorem enter_overtime :
    (soloAt none .outside).Initial ∧
    World.Step solo (soloAt none .outside) (.act () .enter) (soloAt none (.opening 0)) ∧
    ¬∀ ls s', Path (Visit.Step solo () 0) ⟨soloAt none (.opening 0), false⟩ ls s' →
      EndsInTime solo () 0 ls s'.world := by
  refine ⟨⟨fun _ => rfl, fun _ hf => nomatch hf⟩, ?_, fun hbounded => ?_⟩
  · have henter : (soloAt none .outside).Looks solo .enter .outside (.opening (0 + 0)) := .enter 0
    rw [add_zero] at henter
    rw [← move_soloAt none .outside]
    exact .looks _ _ _ _ henter
  · obtain ⟨ls, attempted', hpath, hcount⟩ := exists_attempts 2 false
    have hone := (hbounded _ _ hpath).attempts
    omega

/-- Two processes. -/
def pair : Processes Bool := ⟨fun p => if p then 1 else 2, fun p => by cases p <;> decide⟩

/-- The lock of the second one. -/
def liveLock : LockFile Bool := ⟨some false, some 2, 0⟩

/-- It is inside, and the first one at that place, at time zero. -/
def pairAt (x : Place) : World Bool := ⟨0, some liveLock, fun p => if p then x else .inside⟩

theorem move_pairAt (x y : Place) : (pairAt x).move true y = pairAt y := by
  have hplace : Function.update (pairAt x).place true y = (pairAt y).place := by
    funext p
    cases p
    · rfl
    · exact Function.update_self _ _ _
  rw [World.move, hplace]
  rfl

/-- The second process runs. -/
theorem running_pairAt (x : Place) : ¬(pairAt x).NotRunning pair 2 := by
  rintro (hpid | hcrashed)
  · exact absurd hpid (by decide)
  · have hinside : Place.inside = .crashed := hcrashed false rfl
    cases hinside

/-- The first process finds the lock of the second one, past its deadline. -/
theorem enter_endsInTime_refused :
    (Place.opening 0).InLoop 0 ∧ (0 : ℚ) ≤ (pairAt (.opening 0)).clock ∧
    ∃ ls s', Path (Visit.RegularStep pair true 0) ⟨pairAt (.opening 0), false⟩ ls s' ∧
      EndsInTime pair true 0 ls s'.world := by
  have hregular : ∀ {x y : Place} {act : Act} (attempted : Bool),
      (pairAt x).Looks pair act x y → x.InLoop 0 → act ≠ .raises → act ≠ .crashes →
      (pairAt x).FindsLive pair true →
      Visit.RegularStep pair true 0 ⟨pairAt x, attempted⟩ (some (.act true act))
        ⟨pairAt y, attempted || act.isAttempt⟩ := by
    intro x y act attempted h hloop hraises hcrashes hlive
    refine ⟨⟨hloop, .step ?_, by simp [isAttempt]⟩, ⟨?_, fun _ => hlive⟩⟩
    · rw [← move_pairAt x y]
      exact .looks _ _ _ _ h
    · rintro _ ⟨⟩
      exact ⟨hraises, hcrashes⟩
  have hrun : Path (Visit.RegularStep pair true 0) ⟨pairAt (.opening 0), false⟩
      [some (.act true .openExists), some (.act true .readPid), some (.act true .kill),
        some (.act true .monotonic)] ⟨pairAt .outside, true⟩ := by
    apply Path.cons (hregular false (.openExists 0 liveLock rfl) rfl (by simp) (by simp) trivial)
    apply Path.cons (hregular true (.readPid 0 liveLock 2 rfl rfl) rfl (by simp) (by simp) trivial)
    apply Path.cons (hregular true (.running 0 2 (by decide)) rfl (by simp) (by simp)
      (running_pairAt _))
    exact Path.single (hregular true (.timeout 0 le_rfl) rfl (by simp) (by simp) trivial)
  have hloop : ((pairAt (.opening 0)).place true).InLoop 0 := rfl
  exact ⟨rfl, le_rfl, _, _, hrun, enter_endsInTime hloop le_rfl hrun⟩

end TradeStation.TokenFileLock
