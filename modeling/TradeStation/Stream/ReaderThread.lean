import TradeStation.Foundations.BoundedQueue
import TradeStation.Foundations.Transition
import TradeStation.Transport

/-!
# The reader thread of a stream

`UrllibAsyncTransport.stream` has three parties: a thread that reads the socket, the event loop that
runs the `put` coroutines which the thread submits, and the coroutine that takes items off the queue
and yields them. `Step` is one step of one of them.

* The thread waits for its `put` with a timeout, over and over, and gives it up only once the stop
  flag is set. A `put` that was given up is cancelled or done at some later time.
* Whatever stops the thread, `None` goes through the queue last.
* The coroutine sets the stop flag in its `finally`, so it never takes an item after that.

The socket may do anything: a read returns bytes, or nothing, or raises, also because the coroutine
closes the stream while the thread reads it. So may `close`. Nobody but the thread cancels a `put`.
-/

namespace TradeStation

open Python Foundations

/-! ## What is read -/

/-- `STREAM_QUEUE_MAX_CHUNKS`. -/
def streamQueueMaxChunks : ℕ := 1024

/-- What goes through the queue: `bytes | BaseException | None`. -/
inductive StreamItem
  | chunk (bytes : List UInt8)
  | error (e : Exc)
  | done

/-- What `urlopen` does with the request of a stream: its body is not read yet. -/
inductive StreamOpening
  | opened
  | httpError (code : ℤ) (headers : Option Headers) (read : Except LibExc (List UInt8))
  | raised (e : LibExc)

/-- `_open_stream_sync`. -/
def openStreamSync : StreamOpening → Except Exc Unit
  | .opened => .ok ()
  | .httpError code headers read =>
    match read with
    | .ok body => .error (.streamOpen code (headers.getD []) body)
    | .error e => .error (.library e)
  | .raised e => .error (mapLibExc e)

/-- The handlers of `read_stream`. A `NetworkTimeout` or `TransportError` of `_open_stream_sync` is no
`OSError`, so the last of them has it. -/
def readerError : Exc → Exc
  | .library (.timeout text) => .networkTimeout text
  | .streamOpen statusCode headers body => .streamOpen statusCode headers body
  | .library (.osError text) => .transport text
  | .library e => unexpected e.text
  | .networkTimeout text | .transport text => unexpected text
  -- nothing that the thread calls raises anything else
  | _ => unexpected []
where
  unexpected (text : PyStr) : Exc := .transport (str "unexpected stream reader error: " ++ text)

/-- Whatever the thread meets, the coroutine raises a `TransportError` for it. -/
theorem isTransportError_readerError (e : Exc) : (readerError e).isTransportError = true := by
  cases e with
  | library e => cases e <;> rfl
  | _ => rfl

/-- How the reading ended. -/
inductive StreamEnding
  | eof
  | raised (e : Exc)

/-! ## The parties -/

/-- What `read_stream` goes on with when an `enqueue` returns. -/
inductive AfterPut
  | loop
  | leave
  | exit

/-- Where the thread is. -/
inductive Reader
  /-- in `_open_stream_sync` -/
  | opening
  /-- before `while not stop_requested.is_set()` -/
  | testing
  /-- in `stream.read` -/
  | reading
  /-- in `enqueue`, before `run_coroutine_threadsafe` -/
  | submitting (item : StreamItem) (next : AfterPut)
  /-- in `future.result` -/
  | waiting (next : AfterPut)
  /-- behind a timeout of it, before `stop_requested.is_set()` -/
  | expired (next : AfterPut)
  /-- in the `finally` -/
  | closing
  | finished
  /-- `stream.close` has raised -/
  | died

/-- Where the thread is when an `enqueue` has returned. -/
def AfterPut.reader : AfterPut → Reader
  | .loop => .testing
  | .leave => .closing
  | .exit => .finished

/-- How the coroutine leaves its loop: it finds the end, or an error, or is closed or cancelled. A
`stream.close` that raises comes instead. -/
inductive StreamOutcome
  | ended
  | raised (e : Exc)
  | stopped
  | closeRaised

/-- Where the coroutine is. -/
inductive Consumer
  /-- in `queue.get` -/
  | getting
  /-- at the `yield` -/
  | yielding
  /-- in the `finally`, before the stop flag, before `stream.close`, and before `reader.join` -/
  | leaving (o : StreamOutcome)
  | closing (o : StreamOutcome)
  | joining (o : StreamOutcome)
  | gone (o : StreamOutcome)

/-- The parties and what they share. -/
structure Streaming where
  reader : Reader
  /-- the `put` that the thread waits for, until it is done -/
  pending : Option StreamItem
  /-- the `put`s that it has given up -/
  abandoned : List StreamItem
  queue : BoundedQueue StreamItem streamQueueMaxChunks
  /-- `stop_requested` -/
  stop : Bool
  /-- `stream_ref` has the stream -/
  opened : Bool
  loopOpen : Bool
  consumer : Consumer
  /-- what has been read, how that ended, and what has been yielded -/
  read : List (List UInt8)
  ending : Option StreamEnding
  yielded : List (List UInt8)

/-- The thread has been started. -/
def Streaming.start : Streaming where
  reader := .opening
  pending := none
  abandoned := []
  queue := .empty
  stop := false
  opened := false
  loopOpen := true
  consumer := .getting
  read := []
  ending := none
  yielded := []

/-! ## Steps -/

/-- What the thread does. -/
inductive ReaderAct
  | open
  | test
  | readChunk
  | readEnd
  | submit
  | putDone
  | timeout
  | waitAgain
  | giveUp
  | close
  | closeRaises
  deriving DecidableEq

/-- What the event loop does. -/
inductive LoopAct
  | put
  | settle
  | close
  deriving DecidableEq

/-- What the coroutine does, or is made to do: `stop` is `aclose`, an exception that is thrown into
it, or a cancellation. -/
inductive ConsumerAct
  | get
  | resume
  | stop
  | leave
  | closeRaises
  deriving DecidableEq

inductive StreamLabel
  | reader (act : ReaderAct)
  | loop (act : LoopAct)
  | consumer (act : ConsumerAct)
  deriving DecidableEq

namespace Streaming

/-- A step of the thread. -/
inductive ReaderStep : Streaming → ReaderAct → Streaming → Prop
  | open (s : Streaming) (result : StreamOpening) (h : s.reader = .opening)
    (hresult : openStreamSync result = .ok ()) :
    ReaderStep s .open { s with reader := .testing, opened := true }
  | openRaises (s : Streaming) (result : StreamOpening) (e : Exc) (h : s.reader = .opening)
    (hresult : openStreamSync result = .error e) :
    ReaderStep s .readEnd
      { s with reader := .submitting (.error (readerError e)) .leave, ending := some (.raised e) }
  | test (s : Streaming) (h : s.reader = .testing) :
    ReaderStep s .test { s with reader := if s.stop then .closing else .reading }
  | readChunk (s : Streaming) (bytes : List UInt8) (h : s.reader = .reading) (hbytes : bytes ≠ []) :
    ReaderStep s .readChunk
      { s with reader := .submitting (.chunk bytes) .loop, read := s.read ++ [bytes] }
  | readEof (s : Streaming) (h : s.reader = .reading) :
    ReaderStep s .readEnd { s with reader := .closing, ending := some .eof }
  | readRaises (s : Streaming) (e : LibExc) (h : s.reader = .reading) :
    ReaderStep s .readEnd
      { s with
        reader := .submitting (.error (readerError (.library e))) .leave
        ending := some (.raised (.library e)) }
  | submit (s : Streaming) (item : StreamItem) (next : AfterPut)
    (h : s.reader = .submitting item next) (hloop : s.loopOpen = true) :
    ReaderStep s .submit { s with reader := .waiting next, pending := some item }
  /-- `run_coroutine_threadsafe` raises `RuntimeError`. -/
  | submitClosed (s : Streaming) (item : StreamItem) (next : AfterPut)
    (h : s.reader = .submitting item next) (hloop : s.loopOpen = false) :
    ReaderStep s .submit { s with reader := next.reader }
  | putDone (s : Streaming) (next : AfterPut) (h : s.reader = .waiting next)
    (hpending : s.pending = none) : ReaderStep s .putDone { s with reader := next.reader }
  /-- It may expire although the `put` is done: the future hears of that later. -/
  | timeout (s : Streaming) (next : AfterPut) (h : s.reader = .waiting next) :
    ReaderStep s .timeout { s with reader := .expired next }
  | waitAgain (s : Streaming) (next : AfterPut) (h : s.reader = .expired next)
    (hstop : s.stop = false) : ReaderStep s .waitAgain { s with reader := .waiting next }
  /-- `future.cancel()`, which comes too late if the `put` is done. -/
  | giveUp (s : Streaming) (next : AfterPut) (h : s.reader = .expired next) (hstop : s.stop = true) :
    ReaderStep s .giveUp
      { s with
        reader := next.reader
        pending := none
        abandoned := s.pending.toList ++ s.abandoned }
  | close (s : Streaming) (h : s.reader = .closing) :
    ReaderStep s .close { s with reader := .submitting .done .exit }
  | closeRaises (s : Streaming) (h : s.reader = .closing) (hopened : s.opened = true) :
    ReaderStep s .closeRaises { s with reader := .died }

/-- A step of the event loop. -/
inductive LoopStep : Streaming → LoopAct → Streaming → Prop
  | put (s : Streaming) (item : StreamItem) (hloop : s.loopOpen = true)
    (hpending : s.pending = some item) (hroom : s.queue.items.length < streamQueueMaxChunks) :
    LoopStep s .put { s with pending := none, queue := s.queue.put item hroom }
  /-- A `put` that was given up is done all the same. -/
  | putLate (s : Streaming) (item : StreamItem) (before after : List StreamItem)
    (hloop : s.loopOpen = true) (habandoned : s.abandoned = before ++ item :: after)
    (hroom : s.queue.items.length < streamQueueMaxChunks) :
    LoopStep s .settle { s with abandoned := before ++ after, queue := s.queue.put item hroom }
  | cancelled (s : Streaming) (item : StreamItem) (before after : List StreamItem)
    (hloop : s.loopOpen = true) (habandoned : s.abandoned = before ++ item :: after) :
    LoopStep s .settle { s with abandoned := before ++ after }
  | close (s : Streaming) (hloop : s.loopOpen = true) : LoopStep s .close { s with loopOpen := false }

/-- A step of the coroutine. -/
inductive ConsumerStep : Streaming → ConsumerAct → Streaming → Prop
  | getChunk (s : Streaming) (bytes : List UInt8) (rest : List StreamItem) (hloop : s.loopOpen = true)
    (h : s.consumer = .getting) (hitems : s.queue.items = .chunk bytes :: rest) :
    ConsumerStep s .get
      { s with
        consumer := .yielding
        queue := s.queue.get hitems
        yielded := s.yielded ++ [bytes] }
  | getError (s : Streaming) (e : Exc) (rest : List StreamItem) (hloop : s.loopOpen = true)
    (h : s.consumer = .getting) (hitems : s.queue.items = .error e :: rest) :
    ConsumerStep s .get { s with consumer := .leaving (.raised e), queue := s.queue.get hitems }
  | getDone (s : Streaming) (rest : List StreamItem) (hloop : s.loopOpen = true)
    (h : s.consumer = .getting) (hitems : s.queue.items = .done :: rest) :
    ConsumerStep s .get { s with consumer := .leaving .ended, queue := s.queue.get hitems }
  | resume (s : Streaming) (hloop : s.loopOpen = true) (h : s.consumer = .yielding) :
    ConsumerStep s .resume { s with consumer := .getting }
  | stop (s : Streaming) (hloop : s.loopOpen = true)
    (h : s.consumer = .getting ∨ s.consumer = .yielding) :
    ConsumerStep s .stop { s with consumer := .leaving .stopped }
  | setStop (s : Streaming) (o : StreamOutcome) (hloop : s.loopOpen = true)
    (h : s.consumer = .leaving o) :
    ConsumerStep s .leave { s with consumer := .closing o, stop := true }
  | close (s : Streaming) (o : StreamOutcome) (hloop : s.loopOpen = true)
    (h : s.consumer = .closing o) : ConsumerStep s .leave { s with consumer := .joining o }
  | closeRaises (s : Streaming) (o : StreamOutcome) (hloop : s.loopOpen = true)
    (h : s.consumer = .closing o) (hopened : s.opened = true) :
    ConsumerStep s .closeRaises { s with consumer := .gone .closeRaised }
  /-- `reader.join` waits for a second at most. -/
  | join (s : Streaming) (o : StreamOutcome) (hloop : s.loopOpen = true)
    (h : s.consumer = .joining o) : ConsumerStep s .leave { s with consumer := .gone o }
  | interrupt (s : Streaming) (o : StreamOutcome) (hloop : s.loopOpen = true)
    (h : s.consumer = .closing o ∨ s.consumer = .joining o) :
    ConsumerStep s .stop { s with consumer := .gone .stopped }

/-- A step of one of the parties. -/
inductive Step : Streaming → StreamLabel → Streaming → Prop
  | reader {s s' : Streaming} {act : ReaderAct} (h : ReaderStep s act s') : Step s (.reader act) s'
  | loop {s s' : Streaming} {act : LoopAct} (h : LoopStep s act s') : Step s (.loop act) s'
  | consumer {s s' : Streaming} {act : ConsumerAct} (h : ConsumerStep s act s') :
    Step s (.consumer act) s'

end Streaming

end TradeStation
