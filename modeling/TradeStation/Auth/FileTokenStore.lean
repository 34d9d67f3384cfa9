import TradeStation.Auth.TokenFileLock
import TradeStation.Auth.TokenWorld
import TradeStation.Foundations.Linearization

/-!
# The token store in a file

`FileTokenStore`, with any number of callers: threads of any number of processes, each with one
operation at a time. A step is one call to the operating system, by one of them. `save` and
`compare_and_swap_refresh_token` enter `_TokenFileLock` first; `load` does not.

A token is written to a temporary file in pieces, and `os.replace` puts that file in the place of the
token file. Any call may raise, and a caller may crash anywhere. What is left out is another program
that writes to the token file or removes it.
-/

namespace TradeStation

open Python Foundations TokenFileLock

/-- `TokenCodec`. What `encode` returns need not be the same each time, and it may raise; `decode` gives
`none` where it raises. -/
structure TokenCodec where
  encode : OAuthToken → List UInt8 → Prop
  decode : List UInt8 → Option OAuthToken

namespace TokenCodec

/-- What has been encoded is decoded. -/
def Faithful (codec : TokenCodec) : Prop :=
  ∀ token bytes, codec.encode token bytes → codec.decode bytes = some token

/-- The bytes of a file are those of a token, and there is no file where there is no token. -/
def Holds (codec : TokenCodec) : Option (List UInt8) → MemoryTokenStore.Stored → Prop
  | none, none => True
  | some bytes, some token => codec.encode token bytes
  | _, _ => False

end TokenCodec

/-- The operations of a `TokenStore`. -/
def TokenOp.OfStore : TokenOp → Prop
  | .load | .save _ | .compareAndSwapRefreshToken _ _ => True
  | _ => False

/-- The token that an operation writes. -/
def TokenOp.written : TokenOp → Option OAuthToken
  | .save token | .compareAndSwapRefreshToken _ token => some token
  | _ => none

namespace FileTokenStore

/-- Where a call is. The outcome of one that is over is its answer, or `none` where it raises. -/
inductive Stage
  | idle
  /-- In `_TokenFileLock.__enter__`. -/
  | locking (op : TokenOp)
  /-- In `_load_unlocked`, at `self._path.exists()`. -/
  | checking (op : TokenOp)
  /-- At `self._path.read_bytes()`. -/
  | reading (op : TokenOp)
  /-- In `_save_unlocked`, up to the temporary file. -/
  | creating (op : TokenOp) (token : OAuthToken)
  /-- At `temp_file.write`, with the bytes that are not written yet. -/
  | writing (op : TokenOp) (token : OAuthToken) (rest : List UInt8)
  /-- At `os.replace(temp_path, self._path)`. -/
  | replacing (op : TokenOp) (token : OAuthToken)
  /-- At `temp_path.unlink` behind an `os.replace` that has raised. -/
  | cleaning (op : TokenOp)
  /-- In `_TokenFileLock.__exit__`. -/
  | leaving (op : TokenOp) (outcome : Option op.Answer)
  | returning (op : TokenOp) (outcome : Option op.Answer)

/-- Where a call begins. -/
def begun : TokenOp → Stage
  | .load => .checking .load
  | op => .locking op

/-- Where it goes on inside the lock. -/
def entered : TokenOp → Stage
  | .save token => .creating (.save token) token
  | op => .checking op

/-- What becomes of what `_load_unlocked` returns. -/
def loaded (stored : MemoryTokenStore.Stored) : TokenOp → Stage
  | .load => .returning .load (some stored)
  | .compareAndSwapRefreshToken expected replacement =>
    if stored.bind OAuthToken.refreshToken ≠ expected then
      .leaving (.compareAndSwapRefreshToken expected replacement) (some false)
    else .creating (.compareAndSwapRefreshToken expected replacement) replacement
  | op => .leaving op none

/-- Behind `_save_unlocked`. -/
def saved : TokenOp → Stage
  | .save token => .leaving (.save token) (some ())
  | .compareAndSwapRefreshToken expected replacement =>
    .leaving (.compareAndSwapRefreshToken expected replacement) (some true)
  | op => .leaving op none

/-- Behind an exception. -/
def raised : TokenOp → Stage
  | .load => .returning .load none
  | op => .leaving op none

/-- `load` is not in the `with` statement, the other two are. -/
def Runs : TokenOp → Place → Prop
  | .load, x => x = .outside
  | _, x => x = .inside

/-- How a call goes on when its process takes a step in the lock, which brings it to a place. -/
inductive Turn : Stage → Act → Place → Stage → Prop
  | waits (op : TokenOp) (act : Act) (x : Place) (hinside : x ≠ .inside) (houtside : x ≠ .outside) :
    Turn (.locking op) act x (.locking op)
  | entered (op : TokenOp) : Turn (.locking op) .writePid .inside (entered op)
  -- `ConfigurationError`
  | timeout (op : TokenOp) : Turn (.locking op) .monotonic .outside (.returning op none)
  | raises (op : TokenOp) : Turn (.locking op) .raises .outside (.returning op none)
  | closes (op : TokenOp) (outcome : Option op.Answer) :
    Turn (.leaving op outcome) .close .closing (.leaving op outcome)
  | leaves (op : TokenOp) (outcome : Option op.Answer) :
    Turn (.leaving op outcome) .unlink .outside (.returning op outcome)
  | leavesRaising (op : TokenOp) (outcome : Option op.Answer) :
    Turn (.leaving op outcome) .raises .outside (.returning op none)
  | crashes (stage : Stage) : Turn stage .crashes .crashed stage

/-- What one call works on: the bytes at `self._path`, its temporary file, and where it is. -/
structure View where
  file : Option (List UInt8)
  temp : Option (List UInt8)
  stage : Stage

/-- A call that may raise where it is. -/
def Fallible (op : TokenOp) : Stage → Prop
  | .checking op' | .reading op' | .creating op' _ | .writing op' _ _ | .cleaning op' => op' = op
  | _ => False

/-- The steps on the token file and on the temporary file, by a caller at a place in the lock. -/
inductive Works (codec : TokenCodec) (x : Place) : View → View → Prop
  | absent (op : TokenOp) (temp : Option (List UInt8)) (hrun : Runs op x) :
    Works codec x ⟨none, temp, .checking op⟩ ⟨none, temp, loaded none op⟩
  | present (op : TokenOp) (bytes : List UInt8) (temp : Option (List UInt8)) (hrun : Runs op x) :
    Works codec x ⟨some bytes, temp, .checking op⟩ ⟨some bytes, temp, .reading op⟩
  | read (op : TokenOp) (bytes : List UInt8) (temp : Option (List UInt8)) (token : OAuthToken)
    (hrun : Runs op x) (hdecode : codec.decode bytes = some token) :
    Works codec x ⟨some bytes, temp, .reading op⟩ ⟨some bytes, temp, loaded (some token) op⟩
  | garbled (op : TokenOp) (bytes : List UInt8) (temp : Option (List UInt8)) (hrun : Runs op x)
    (hdecode : codec.decode bytes = none) :
    Works codec x ⟨some bytes, temp, .reading op⟩ ⟨some bytes, temp, raised op⟩
  | create (op : TokenOp) (token : OAuthToken) (file temp : Option (List UInt8))
    (encoded : List UInt8) (hrun : Runs op x) (hencode : codec.encode token encoded) :
    Works codec x ⟨file, temp, .creating op token⟩ ⟨file, some [], .writing op token encoded⟩
  | write (op : TokenOp) (token : OAuthToken) (file : Option (List UInt8))
    (bytes piece rest : List UInt8) (hrun : Runs op x) :
    Works codec x ⟨file, some bytes, .writing op token (piece ++ rest)⟩
      ⟨file, some (bytes ++ piece), .writing op token rest⟩
  | close (op : TokenOp) (token : OAuthToken) (file temp : Option (List UInt8))
    (hrun : Runs op x) :
    Works codec x ⟨file, temp, .writing op token []⟩ ⟨file, temp, .replacing op token⟩
  -- `os.replace`
  | replace (op : TokenOp) (token : OAuthToken) (file : Option (List UInt8)) (bytes : List UInt8)
    (hrun : Runs op x) :
    Works codec x ⟨file, some bytes, .replacing op token⟩ ⟨some bytes, none, saved op⟩
  | replaceRaises (op : TokenOp) (token : OAuthToken) (file temp : Option (List UInt8))
    (hrun : Runs op x) :
    Works codec x ⟨file, temp, .replacing op token⟩ ⟨file, temp, .cleaning op⟩
  | discard (op : TokenOp) (file temp : Option (List UInt8)) (hrun : Runs op x) :
    Works codec x ⟨file, temp, .cleaning op⟩ ⟨file, none, raised op⟩
  | raises (op : TokenOp) (stage : Stage) (file temp : Option (List UInt8)) (hrun : Runs op x)
    (hstage : Fallible op stage) : Works codec x ⟨file, temp, stage⟩ ⟨file, temp, raised op⟩

/-- What a step is. -/
inductive Label (P : Type)
  | lock (l : TokenFileLock.Label P)
  | work (p : P)
  | calls (p : P) (op : TokenOp)
  | returns (p : P) (op : TokenOp) (x : op.Answer)
  | raises (p : P) (op : TokenOp)

/-- What shows of a step. -/
def Label.shows {P : Type} : Label P → Option (Interaction P TokenOp TokenOp.Answer)
  | .calls p op => some (.calls p op)
  | .returns p op x => some (.returns p op x)
  | .raises p op => some (.raises p op)
  | _ => none

/-- The state: the lock and where each caller is in it, the bytes at `self._path`, the temporary file of
each caller, and where each caller is in its call. -/
structure World (P : Type) where
  lock : TokenFileLock.World P
  file : Option (List UInt8)
  temp : P → Option (List UInt8)
  stage : P → Stage

namespace World

variable {P : Type} [DecidableEq P]

/-- What the call of a process works on. -/
def view (s : World P) (p : P) : View := ⟨s.file, s.temp p, s.stage p⟩

/-- The state behind a step on it. -/
def put (s : World P) (p : P) (v : View) : World P :=
  ⟨s.lock, v.file, Function.update s.temp p v.temp, Function.update s.stage p v.stage⟩

/-- A call goes on. -/
def turn (s : World P) (p : P) (stage : Stage) : World P :=
  { s with stage := Function.update s.stage p stage }

/-- The steps of the system. -/
inductive Step (codec : TokenCodec) (procs : Processes P) :
    World P → Label P → World P → Prop
  | tick (s : World P) (w : TokenFileLock.World P)
    (h : TokenFileLock.World.Step procs s.lock .tick w) :
    Step codec procs s (.lock .tick) { s with lock := w }
  | lock (s : World P) (p : P) (act : Act) (w : TokenFileLock.World P) (stage : Stage)
    (h : TokenFileLock.World.Step procs s.lock (.act p act) w)
    (hturn : Turn (s.stage p) act (w.place p) stage) :
    Step codec procs s (.lock (.act p act)) { s.turn p stage with lock := w }
  | work (s : World P) (p : P) (v : View) (h : Works codec (s.lock.place p) (s.view p) v) :
    Step codec procs s (.work p) (s.put p v)
  | calls (s : World P) (p : P) (op : TokenOp) (hop : op.OfStore) (hplace : s.lock.place p = .outside)
    (hstage : s.stage p = .idle) : Step codec procs s (.calls p op) (s.turn p (begun op))
  | returns (s : World P) (p : P) (op : TokenOp) (x : op.Answer)
    (hplace : s.lock.place p = .outside) (hstage : s.stage p = .returning op (some x)) :
    Step codec procs s (.returns p op x) (s.turn p .idle)
  | raises (s : World P) (p : P) (op : TokenOp) (hplace : s.lock.place p = .outside)
    (hstage : s.stage p = .returning op none) :
    Step codec procs s (.raises p op) (s.turn p .idle)

/-- No call has begun, nobody has the lock, and the token file holds a token or is not there. -/
structure Initial (codec : TokenCodec) (stored : MemoryTokenStore.Stored) (s : World P) : Prop where
  lock : s.lock.Initial
  file : codec.Holds s.file stored
  stage : ∀ p, s.stage p = .idle

end World

end FileTokenStore

end TradeStation
