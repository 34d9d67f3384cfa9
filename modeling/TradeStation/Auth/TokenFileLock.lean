import Mathlib.Algebra.Order.Ring.Rat
import Mathlib.Logic.Function.Basic

/-!
# The lock of the token store

`_TokenFileLock`, with any number of processes on one path. A step of the system is one call of one
process to the operating system, or time passing: between two calls of a process any other may come
first. What a process knows beside its place in the code is the deadline, and what its last call
told it.

The calls are `os.open`, `os.write`, the read of the lock file, `os.kill`, `stat`, `time.time`,
`os.replace`, the two `unlink`s and `time.monotonic`. Each may fail the way the code expects; an
exception that it does not expect takes the process out of the `with` statement, and a process may
crash anywhere.
-/

namespace TradeStation.TokenFileLock

/-- `TOKEN_LOCK_STALE_SECONDS`. -/
def tokenLockStaleSeconds : ℚ := 1

/-- The file at the lock path. -/
structure LockFile (P : Type) where
  /-- The process that created it; `none` for a file that was there before all of them. -/
  creator : Option P
  /-- What `_read_lock_pid` makes of the text in it. -/
  pid : Option ℤ
  mtime : ℚ

/-- Where a process is. -/
inductive Place
  /-- Not in the `with` statement. -/
  | outside
  /-- At `os.open`. -/
  | opening (deadline : ℚ)
  /-- At `os.write`: the file is there. -/
  | writing (created : ℚ)
  /-- Between `__enter__` and `__exit__`. -/
  | inside
  /-- In `__exit__`, at `unlink`. -/
  | closing
  /-- In `_remove_stale_lock`, at `_read_lock_pid`. -/
  | reading (deadline : ℚ)
  /-- At `_process_is_running(pid)`. -/
  | checking (deadline : ℚ) (pid : ℤ)
  /-- In `_lock_file_is_stale`, at `path.stat()`. -/
  | statting (deadline : ℚ)
  /-- At `time.time() - modified_at`. -/
  | comparing (deadline modifiedAt : ℚ)
  /-- In `_steal_stale_lock`, at `os.replace`. -/
  | stealing (deadline : ℚ)
  /-- At the `unlink` of the stolen file. -/
  | discarding (deadline : ℚ)
  /-- `_remove_stale_lock` has returned `False`. -/
  | refused (deadline : ℚ)
  | crashed

/-- The process has created its lock file and not yet removed it. -/
def Place.Holds : Place → Prop
  | .writing _ | .inside | .closing => True
  | _ => False

/-- What a step of a process is. -/
inductive Act
  | enter
  | openFile
  | openExists
  | writePid
  | readPid
  | readFails
  | kill
  | stat
  | statFails
  | time
  | replace
  | replaceFails
  | unlinkStolen
  | monotonic
  | close
  | unlink
  | raises
  | crashes
  deriving DecidableEq

/-- A step: time passes, or a process acts. -/
inductive Label (P : Type)
  | tick
  | act (p : P) (act : Act)
  deriving DecidableEq

/-- The processes. -/
structure Processes (P : Type) where
  /-- `os.getpid()`. -/
  pid : P → ℤ
  pid_pos : ∀ p, 0 < pid p

/-- The state of the system. The clock is that of the processes and of the file system; it never goes
back. -/
structure World (P : Type) where
  clock : ℚ
  lock : Option (LockFile P)
  place : P → Place

namespace World

variable {P : Type} (procs : Processes P)

/-- No process has started, and any lock file is left over from before. -/
structure Initial (s : World P) : Prop where
  outside : ∀ p, s.place p = .outside
  leftover : ∀ f, s.lock = some f → f.creator = none

/-- `_process_is_running` may answer `False`. -/
def NotRunning (s : World P) (pid : ℤ) : Prop :=
  pid ≤ 0 ∨ ∀ p, procs.pid p = pid → s.place p = .crashed

/-- `time.time() - modified_at >= TOKEN_LOCK_STALE_SECONDS`. -/
def aged (s : World P) (modifiedAt : ℚ) : Bool := tokenLockStaleSeconds ≤ s.clock - modifiedAt

/-- The test of `_remove_stale_lock`, made of one file at one moment. -/
def Stale (s : World P) (f : LockFile P) : Prop :=
  match f.pid with
  | some pid => s.NotRunning procs pid
  | none => s.aged f.mtime = true

/-- The steps of a process that leave the lock path as it is. -/
inductive Looks (s : World P) : Act → Place → Place → Prop
  | enter (timeoutSeconds : ℚ) : Looks s .enter .outside (.opening (s.clock + timeoutSeconds))
  -- `os.open` raises `FileExistsError`
  | openExists (deadline : ℚ) (f : LockFile P) (h : s.lock = some f) :
    Looks s .openExists (.opening deadline) (.reading deadline)
  -- `_read_lock_pid`
  | readPid (deadline : ℚ) (f : LockFile P) (pid : ℤ) (h : s.lock = some f)
    (hpid : f.pid = some pid) : Looks s .readPid (.reading deadline) (.checking deadline pid)
  | readNone (deadline : ℚ) (h : ∀ f, s.lock = some f → f.pid = none) :
    Looks s .readPid (.reading deadline) (.statting deadline)
  | readFails (deadline : ℚ) : Looks s .readFails (.reading deadline) (.statting deadline)
  -- `_process_is_running`
  | running (deadline : ℚ) (pid : ℤ) (h : 0 < pid) :
    Looks s .kill (.checking deadline pid) (.refused deadline)
  | notRunning (deadline : ℚ) (pid : ℤ) (h : s.NotRunning procs pid) :
    Looks s .kill (.checking deadline pid) (.stealing deadline)
  -- `_lock_file_is_stale`
  | stat (deadline : ℚ) (f : LockFile P) (h : s.lock = some f) :
    Looks s .stat (.statting deadline) (.comparing deadline f.mtime)
  | statMissing (deadline : ℚ) (h : s.lock = none) :
    Looks s .stat (.statting deadline) (.stealing deadline)
  | statFails (deadline : ℚ) : Looks s .statFails (.statting deadline) (.refused deadline)
  | stale (deadline modifiedAt : ℚ) (h : s.aged modifiedAt = true) :
    Looks s .time (.comparing deadline modifiedAt) (.stealing deadline)
  | fresh (deadline modifiedAt : ℚ) (h : s.aged modifiedAt = false) :
    Looks s .time (.comparing deadline modifiedAt) (.refused deadline)
  -- `_steal_stale_lock`, but for the `os.replace` that moves a file
  | replaceMissing (deadline : ℚ) (h : s.lock = none) :
    Looks s .replaceFails (.stealing deadline) (.opening deadline)
  | replaceFails (deadline : ℚ) : Looks s .replaceFails (.stealing deadline) (.refused deadline)
  | unlinkStolen (deadline : ℚ) : Looks s .unlinkStolen (.discarding deadline) (.opening deadline)
  -- `time.monotonic() >= deadline`
  | retry (deadline : ℚ) (h : s.clock < deadline) :
    Looks s .monotonic (.refused deadline) (.opening deadline)
  | timeout (deadline : ℚ) (h : deadline ≤ s.clock) :
    Looks s .monotonic (.refused deadline) .outside
  -- `os.close` of `__exit__`
  | close : Looks s .close .inside .closing
  | raises (x : Place) (hinside : x ≠ .inside) (hcrashed : x ≠ .crashed) :
    Looks s .raises x .outside
  | crashes (x : Place) : Looks s .crashes x .crashed

variable [DecidableEq P]

/-- The process goes on to a place. -/
def move (s : World P) (p : P) (x : Place) : World P :=
  { s with place := Function.update s.place p x }

/-- The lock file after `p` has written its pid to the file it has opened. -/
def writePid (s : World P) (p : P) : Option (LockFile P) :=
  s.lock.map fun f =>
    if f.creator = some p then { f with pid := some (procs.pid p), mtime := s.clock } else f

/-- The steps of the system. -/
inductive Step : World P → Label P → World P → Prop
  | tick (s : World P) (clock : ℚ) (h : s.clock ≤ clock) : Step s .tick { s with clock }
  | looks (s : World P) (p : P) (act : Act) (x : Place) (h : s.Looks procs act (s.place p) x) :
    Step s (.act p act) (s.move p x)
  -- `os.open(path, O_CREAT | O_EXCL | O_WRONLY)`
  | openFile (s : World P) (p : P) (deadline : ℚ) (h : s.place p = .opening deadline)
    (hlock : s.lock = none) :
    Step s (.act p .openFile)
      { s.move p (.writing s.clock) with lock := some ⟨some p, none, s.clock⟩ }
  | writePid (s : World P) (p : P) (created : ℚ) (h : s.place p = .writing created) :
    Step s (.act p .writePid) { s.move p .inside with lock := s.writePid procs p }
  -- `os.replace(path, steal_path)`
  | replace (s : World P) (p : P) (deadline : ℚ) (f : LockFile P)
    (h : s.place p = .stealing deadline) (hlock : s.lock = some f) :
    Step s (.act p .replace) { s.move p (.discarding deadline) with lock := none }
  -- `path.unlink()` of `__exit__`
  | unlink (s : World P) (p : P) (h : s.place p = .closing) :
    Step s (.act p .unlink) { s.move p .outside with lock := none }

end World

end TradeStation.TokenFileLock
