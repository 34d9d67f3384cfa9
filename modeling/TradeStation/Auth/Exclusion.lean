import Mathlib.Tactic.NormNum
import TradeStation.Auth.TokenFileLock
import TradeStation.Foundations.Transition

/-!
# Mutual exclusion of the token-store lock

A process decides that the lock is stale with one call and takes it away with another, and the file
that it takes need not be the one that it has judged.

* `World.Held` is the invariant: whoever holds the lock has its own file at the lock path.
* `step_held`: a step keeps it if no process sits on a file without pid for a second, and if the
  file that an `os.replace` moves is stale at that moment.
* `lock_excludes`: so runs of such steps are mutually exclusive, and as long as nothing crashes and
  no unexpected exception is raised, a step that is not of this kind does take away the lock of a
  process that holds it.
-/

namespace TradeStation.TokenFileLock

open Foundations

namespace World

variable {P : Type} (procs : Processes P)

/-! ## What is claimed of a run -/

/-- At most one process is between `__enter__` and `__exit__`. -/
def Exclusive (s : World P) : Prop :=
  ∀ p q, s.place p = .inside → s.place q = .inside → p = q

/-- A process that has created a file has not yet had a second to write its pid. -/
def Prompt (s : World P) : Prop :=
  ∀ p created, s.place p = .writing created → s.clock - created < tokenLockStaleSeconds

/-- If the step moves a file that a process created, the file is stale at this moment. -/
def TakesStale (s : World P) (l : Label P) : Prop :=
  ∀ p f, l = .act p .replace → s.lock = some f → f.creator ≠ none → s.Stale procs f

/-- The step removes or renames the lock file of another process that holds the lock. -/
def Robs (s : World P) (l : Label P) (s' : World P) : Prop :=
  ∃ p act q f, l = .act p act ∧ p ≠ q ∧ (s.place q).Holds ∧ s.lock = some f ∧
    f.creator = some q ∧ ∀ f', s'.lock = some f' → f'.creator ≠ some q

end World

/-- Neither a crash nor an exception that the code does not expect. -/
def Label.Orderly {P : Type} : Label P → Prop
  | .act _ .raises | .act _ .crashes => False
  | _ => True

namespace World

variable {P : Type} {procs : Processes P} {s s' : World P} {l : Label P}

/-! ## The invariant -/

/-- The lock file is that of `p`, who is at place `x`. -/
def Owns (procs : Processes P) (p : P) : Place → LockFile P → Prop
  | .writing created, f => f.creator = some p ∧ f.pid = none ∧ f.mtime = created
  | .inside, f | .closing, f => f.creator = some p ∧ f.pid = some (procs.pid p)
  | _, _ => False

/-- Whoever holds the lock has its own file at the lock path. -/
def Held (procs : Processes P) (s : World P) : Prop :=
  ∀ p, (s.place p).Holds → ∃ f, s.lock = some f ∧ Owns procs p (s.place p) f

theorem Owns.creator {p : P} {x : Place} {f : LockFile P} (h : Owns procs p x f) :
    f.creator = some p := by
  cases x <;> first | exact h.1 | exact h.elim

/-- Only one process holds the lock. -/
theorem Held.unique {p q : P} (hs : s.Held procs) (hp : (s.place p).Holds)
    (hq : (s.place q).Holds) : p = q := by
  obtain ⟨f, hf, hfp⟩ := hs p hp
  obtain ⟨f', hf', hfq⟩ := hs q hq
  have hsame : f = f' := Option.some.inj (hf.symm.trans hf')
  subst hsame
  exact Option.some.inj (hfp.creator.symm.trans hfq.creator)

theorem Held.exclusive (hs : s.Held procs) : s.Exclusive := by
  intro p q hp hq
  apply hs.unique
  · rw [hp]
    trivial
  · rw [hq]
    trivial

/-- The file of a process that holds the lock is not stale. -/
theorem Owns.not_stale {p : P} {f : LockFile P} (h : Owns procs p (s.place p) f)
    (hprompt : s.Prompt) : ¬s.Stale procs f := by
  intro hstale
  have hrunning : f.pid = some (procs.pid p) → s.place p = .crashed := by
    intro hpid
    unfold Stale at hstale
    rw [hpid] at hstale
    have hpos := procs.pid_pos p
    rcases hstale with hle | hcrashed
    · omega
    · exact hcrashed p rfl
  cases hplace : s.place p with
  | writing created =>
    rw [hplace] at h
    obtain ⟨-, hpid, hmtime⟩ := h
    have hyoung := hprompt p created hplace
    unfold Stale aged at hstale
    rw [hpid, hmtime, decide_eq_true_eq] at hstale
    exact absurd hyoung (not_lt.2 hstale)
  | inside =>
    rw [hplace] at h hrunning
    cases hrunning h.2
  | closing =>
    rw [hplace] at h hrunning
    cases hrunning h.2
  | _ =>
    rw [hplace] at h
    exact h.elim

/-- The lock file is left over, or the process that created it holds the lock. -/
def Occupied (s : World P) : Prop :=
  ∀ f q, s.lock = some f → f.creator = some q → (s.place q).Holds

theorem Initial.held (hs : s.Initial) : s.Held procs := by
  intro p hp
  rw [hs.outside] at hp
  exact hp.elim

theorem Initial.occupied (hs : s.Initial) : s.Occupied := by
  intro f q hf hcreator
  rw [hs.leftover f hf] at hcreator
  cases hcreator

/-- No time has passed since a file without pid was created. -/
def Instant (s : World P) : Prop := ∀ p created, s.place p = .writing created → s.clock = created

theorem Instant.prompt (hs : s.Instant) : s.Prompt := by
  intro p created h
  rw [hs p created h, sub_self]
  norm_num [tokenLockStaleSeconds]

/-! ## Steps -/

/-- A step that leaves the lock path as it is does not start to hold the lock, and on with the lock
it goes to the end of the `with` statement. -/
theorem Looks.holds {act : Act} {x y : Place} (h : s.Looks procs act x y) (hy : y.Holds) :
    x = .inside ∧ y = .closing := by
  cases h <;> first | exact ⟨rfl, rfl⟩ | exact hy.elim

/-- Only a crash or an unexpected exception makes a process forget its lock. -/
theorem Looks.keeps {act : Act} {x y : Place} {p : P} (h : s.Looks procs act x y)
    (horderly : (Label.act p act).Orderly) (hx : x.Holds) : y.Holds := by
  cases h <;> first | exact hx.elim | exact horderly.elim | trivial

variable [DecidableEq P]

@[simp] theorem move_place_self (p : P) (x : Place) : (s.move p x).place p = x := by
  simp [move]

theorem move_place_ne {p q : P} (x : Place) (h : q ≠ p) : (s.move p x).place q = s.place q := by
  simp [move, h]

/-- The steps of `p` that end with a lock file of its own keep the invariant. -/
theorem held_of_own {p : P} {f : LockFile P} (hown : Owns procs p (s'.place p) f)
    (hlock : s'.lock = some f)
    (hothers : ∀ q, q ≠ p → ¬(s'.place q).Holds) : s'.Held procs := by
  intro q hq
  by_cases h : q = p
  · subst h
    exact ⟨f, hlock, hown⟩
  · exact absurd hq (hothers q h)

/-- **A step keeps the invariant.** -/
theorem step_held (hstep : Step procs s l s') (hprompt : s.Prompt)
    (hstale : s.TakesStale procs l) (hs : s.Held procs) : s'.Held procs := by
  cases hstep with
  | tick clock h => exact hs
  | looks p act x h =>
    intro q hq
    by_cases hqp : q = p
    · subst hqp
      rw [move_place_self] at hq ⊢
      obtain ⟨hinside, rfl⟩ := h.holds hq
      obtain ⟨f, hf, hown⟩ := hs q (by rw [hinside]; trivial)
      rw [hinside] at hown
      exact ⟨f, hf, hown⟩
    · rw [move_place_ne x hqp] at hq ⊢
      exact hs q hq
  | openFile p deadline h hlock =>
    refine held_of_own (p := p) ?_ rfl fun q hqp hq => ?_
    · change Owns procs p ((s.move p (.writing s.clock)).place p) _
      rw [move_place_self]
      exact ⟨rfl, rfl, rfl⟩
    · change ((s.move p (.writing s.clock)).place q).Holds at hq
      rw [move_place_ne _ hqp] at hq
      -- nobody held the lock, for there was no file
      obtain ⟨f, hf, -⟩ := hs q hq
      rw [hlock] at hf
      cases hf
  | writePid p created h =>
    have hp : (s.place p).Holds := by
      rw [h]
      trivial
    obtain ⟨f, hf, hown⟩ := hs p hp
    refine held_of_own (p := p) (f := { f with pid := some (procs.pid p), mtime := s.clock })
      ?_ ?_ fun q hqp hq => ?_
    · change Owns procs p ((s.move p .inside).place p) _
      rw [move_place_self]
      exact ⟨hown.creator, rfl⟩
    · simp [writePid, hf, hown.creator]
    · change ((s.move p .inside).place q).Holds at hq
      rw [move_place_ne _ hqp] at hq
      exact hqp (hs.unique hq hp)
  | replace p deadline f h hlock =>
    intro q hq
    exfalso
    change ((s.move p (.discarding deadline)).place q).Holds at hq
    by_cases hqp : q = p
    · subst hqp
      rw [move_place_self] at hq
      exact hq
    · rw [move_place_ne _ hqp] at hq
      obtain ⟨f', hf', hown⟩ := hs q hq
      have hsame : f = f' := Option.some.inj (hlock.symm.trans hf')
      subst hsame
      have hcreated : f.creator ≠ none := by
        rw [hown.creator]
        simp
      exact hown.not_stale hprompt (hstale p f rfl hlock hcreated)
  | unlink p h =>
    intro q hq
    exfalso
    change ((s.move p .outside).place q).Holds at hq
    by_cases hqp : q = p
    · subst hqp
      rw [move_place_self] at hq
      exact hq
    · rw [move_place_ne _ hqp] at hq
      exact hqp (hs.unique hq (by rw [h]; trivial))

/-- A step moves nobody but its process. -/
theorem Step.place_ne (hstep : Step procs s l s') {q : P} (hq : ∀ act, l ≠ .act q act) :
    s'.place q = s.place q := by
  have hother : ∀ {p act}, l = .act p act → q ≠ p := by
    rintro p act hl rfl
    exact hq act hl
  cases hstep with
  | tick => rfl
  | looks p act x h => exact move_place_ne x (hother rfl)
  | openFile p deadline h hlock => exact move_place_ne _ (hother rfl)
  | writePid p created h => exact move_place_ne _ (hother rfl)
  | replace p deadline f h hlock => exact move_place_ne _ (hother rfl)
  | unlink p h => exact move_place_ne _ (hother rfl)

/-- **A step that keeps the invariant robs nobody.** -/
theorem Held.not_robs (hs' : s'.Held procs) (hstep : Step procs s l s') : ¬s.Robs l s' := by
  rintro ⟨p, act, q, f, rfl, hpq, hq, hf, hcreator, hgone⟩
  have hplace : s'.place q = s.place q := by
    apply hstep.place_ne
    rintro act' ⟨⟩
    exact hpq rfl
  obtain ⟨f', hf', hown⟩ := hs' q (by rwa [hplace])
  exact hgone f' hf' hown.creator

theorem step_occupied (hstep : Step procs s l s') (horderly : l.Orderly) (hs : s.Occupied) :
    s'.Occupied := by
  intro f q hf hcreator
  cases hstep with
  | tick clock h => exact hs f q hf hcreator
  | looks p act x h =>
    have hq := hs f q hf hcreator
    by_cases hqp : q = p
    · subst hqp
      rw [move_place_self]
      exact h.keeps horderly hq
    · rwa [move_place_ne x hqp]
  | openFile p deadline h hlock =>
    cases hf
    cases hcreator
    change ((s.move q (.writing s.clock)).place q).Holds
    rw [move_place_self]
    trivial
  | writePid p created h =>
    change ((s.move p .inside).place q).Holds
    by_cases hqp : q = p
    · subst hqp
      rw [move_place_self]
      trivial
    · rw [move_place_ne _ hqp]
      obtain ⟨f₀, hf₀, rfl⟩ := Option.map_eq_some_iff.1 hf
      refine hs f₀ q hf₀ ?_
      split_ifs at hcreator <;> exact hcreator
  | replace => cases hf
  | unlink => cases hf

/-- **A step that takes a file that is not stale** robs the process that created it. -/
theorem Occupied.robs (hs : s.Occupied) (hstep : Step procs s l s')
    (hfresh : ¬s.TakesStale procs l) : s.Robs l s' := by
  unfold TakesStale at hfresh
  push Not at hfresh
  obtain ⟨p, f, rfl, hf, hcreated, -⟩ := hfresh
  obtain ⟨q, hq⟩ := Option.ne_none_iff_exists'.1 hcreated
  have hholds := hs f q hf hq
  cases hstep with
  | looks _ _ _ h => cases h
  | replace _ deadline _ h _ =>
    refine ⟨p, _, q, f, rfl, ?_, hholds, hf, hq, by simp⟩
    rintro rfl
    rw [h] at hholds
    exact hholds

/-! ## Runs -/

/-- A step in which nobody sits on a file without pid. -/
def PromptStep (procs : Processes P) (s : World P) (l : Label P) (s' : World P) : Prop :=
  Step procs s l s' ∧ s.Prompt

/-- A step in which, beside that, nobody takes a file that is not stale. -/
def CarefulStep (procs : Processes P) (s : World P) (l : Label P) (s' : World P) : Prop :=
  PromptStep procs s l s' ∧ s.TakesStale procs l

/-- **The lock excludes in every run of careful steps**, and they rob nobody. Where nothing crashes
and no unexpected exception is raised, every other step of prompt processes robs somebody. -/
theorem lock_excludes {start : World P} {ls : List (Label P)} (hstart : start.Initial)
    (hrun : Path (CarefulStep procs) start ls s) :
    s.Exclusive ∧ (∀ l s', CarefulStep procs s l s' → ¬s.Robs l s') ∧
      ((∀ l ∈ ls, l.Orderly) → ∀ l s', PromptStep procs s l s' → ¬CarefulStep procs s l s' →
        s.Robs l s') := by
  have hkeeps : ∀ {s l s'}, CarefulStep procs s l s' → s.Held procs → s'.Held procs :=
    fun hstep => step_held hstep.1.1 hstep.1.2 hstep.2
  have hheld : s.Held procs :=
    hrun.invariant (fun _ => True) (fun _ _ => trivial) (fun hstep _ => hkeeps hstep) hstart.held
  refine ⟨hheld.exclusive, fun l s' hstep => ?_, fun horderly l s' hstep hcareless => ?_⟩
  · have hheld' : s'.Held procs := hkeeps hstep hheld
    exact hheld'.not_robs hstep.1.1
  · -- whoever created the file still holds the lock
    have hoccupied : s.Occupied :=
      hrun.invariant Label.Orderly horderly (fun hstep hl => step_occupied hstep.1.1 hl)
        hstart.occupied
    refine hoccupied.robs hstep.1 fun htakes => ?_
    exact hcareless ⟨hstep, htakes⟩

/-- As long as time stands still, every process is prompt. -/
theorem step_instant (hstep : Step procs s l s') (hl : l ≠ .tick) (hs : s.Instant) :
    s'.Instant := by
  have hmoved : ∀ (p : P) (x : Place), (∀ created, x = .writing created → s.clock = created) →
      (s.move p x).Instant := by
    intro p x hx q created hq
    by_cases hqp : q = p
    · subst hqp
      rw [move_place_self] at hq
      exact hx created hq
    · rw [move_place_ne x hqp] at hq
      exact hs q created hq
  cases hstep with
  | tick => exact absurd rfl hl
  | looks p act x h =>
    apply hmoved
    rintro created rfl
    cases (h.holds trivial).2
  | openFile p deadline h hlock =>
    apply hmoved p
    rintro created ⟨⟩
    rfl
  | writePid p created h => exact hmoved p _ (by simp)
  | replace p deadline f h hlock => exact hmoved p _ (by simp)
  | unlink p h => exact hmoved p _ (by simp)

end World

/-! ## Three processes -/

/-- Three processes. -/
inductive Contender
  | first
  | second
  | third
  deriving DecidableEq

/-- Their pids. -/
def contenders : Processes Contender where
  pid
    | .first => 101
    | .second => 102
    | .third => 103
  pid_pos p := by cases p <;> decide

/-- Nobody has started, and there is no lock file. -/
def unlocked : World Contender where
  clock := 0
  lock := none
  place _ := .outside

/-- While the second process judges the lock, the first one leaves and the third one enters. -/
def race : List (Label Contender) :=
  [.act .first .enter, .act .first .openFile, .act .first .writePid,
    .act .second .enter, .act .second .openExists,
    .act .first .close, .act .first .unlink,
    .act .second .readPid, .act .second .stat,
    .act .third .enter, .act .third .openFile, .act .third .writePid]

/-- The second process takes the lock of the third one. -/
def theft : List (Label Contender) :=
  [.act .second .replace, .act .second .unlinkStolen, .act .second .openFile, .act .second .writePid]

theorem race_path : ∃ s, Path (World.Step contenders) unlocked race s ∧
    s.place .second = .stealing 5 ∧ s.place .third = .inside ∧ ∃ f, s.lock = some f :=
  ⟨_,
    .cons (.looks _ _ _ _ (.enter 5)) <|
    .cons (.openFile _ _ _ rfl rfl) <|
    .cons (.writePid _ _ _ rfl) <|
    .cons (.looks _ _ _ _ (.enter 5)) <|
    .cons (.looks _ _ _ _ (.openExists _ _ rfl)) <|
    .cons (.looks _ _ _ _ .close) <|
    .cons (.unlink _ _ rfl) <|
    .cons (.looks _ _ _ _ (.readNone _ (by rintro _ ⟨⟩))) <|
    .cons (.looks _ _ _ _ (.statMissing _ rfl)) <|
    .cons (.looks _ _ _ _ (.enter 5)) <|
    .cons (.openFile _ _ _ rfl rfl) <|
    .cons (.writePid _ _ _ rfl) <|
    .nil _, by simp [World.move, unlocked], rfl, _, rfl⟩

theorem theft_path {s : World Contender} {deadline : ℚ} {f : LockFile Contender}
    (hsecond : s.place .second = .stealing deadline) (hthird : s.place .third = .inside)
    (hlock : s.lock = some f) :
    ∃ s', Path (World.Step contenders) s theft s' ∧ s'.place .second = .inside ∧
      s'.place .third = .inside :=
  ⟨_,
    .cons (.replace _ _ _ _ hsecond hlock) <|
    .cons (.looks _ _ _ _ (.unlinkStolen deadline)) <|
    .cons (.openFile _ _ _ rfl rfl) <|
    .cons (.writePid _ _ _ rfl) <|
    .nil _, rfl, by simp [World.move, hthird]⟩

theorem unlocked_initial : unlocked.Initial where
  outside _ := rfl
  leftover := by rintro f ⟨⟩

theorem unlocked_instant : unlocked.Instant := by
  rintro p created ⟨⟩

/-- **Two processes are inside**: nothing crashes, no unexpected exception is raised, every pid is
written at once. -/
theorem race_not_exclusive : ∃ ls s, Path (World.PromptStep contenders) unlocked ls s ∧
    (∀ l ∈ ls, l.Orderly) ∧ ¬s.Exclusive := by
  obtain ⟨s, hrace, hsecond, hthird, f, hlock⟩ := race_path
  obtain ⟨s', htheft, hsecond', hthird'⟩ := theft_path hsecond hthird hlock
  refine ⟨race ++ theft, s', ?_, ?_, fun hexclusive => ?_⟩
  · refine (hrace.append htheft).refine (· ≠ .tick) (by decide) (fun hstep hl hs => ?_)
      unlocked_instant
    exact ⟨⟨hstep, hs.prompt⟩, World.step_instant hstep hl hs⟩
  · simp [race, theft, Label.Orderly]
  · cases hexclusive _ _ hsecond' hthird'

theorem lock_excludes_race : ∃ s, Path (World.CarefulStep contenders) unlocked race s ∧
    s.Exclusive ∧ (∀ l s', World.CarefulStep contenders s l s' → ¬s.Robs l s') ∧
      ((∀ l ∈ race, l.Orderly) → ∀ l s', World.PromptStep contenders s l s' →
        ¬World.CarefulStep contenders s l s' → s.Robs l s') := by
  obtain ⟨s, hrace, -⟩ := race_path
  have hcareful : Path (World.CarefulStep contenders) unlocked race s := by
    refine hrace.refine (fun l => l ≠ .tick ∧ ∀ p, l ≠ .act p .replace) ?_ (fun hstep hl hs => ?_)
      unlocked_instant
    · simp [race]
    · refine ⟨⟨⟨hstep, hs.prompt⟩, fun p f hreplace => ?_⟩, World.step_instant hstep hl.1 hs⟩
      exact absurd hreplace (hl.2 p)
  exact ⟨s, hcareful, World.lock_excludes unlocked_initial hcareful⟩

end TradeStation.TokenFileLock
