import TradeStation.Stream.Lossless

/-!
# The threaded reader comes to its end

Two counts. `measure` counts what all parties still have to do: only a chunk that is read and a timeout
that expires add to it (`Step.measure_le`). `Reader.left` counts what the thread still has to do once
the stop flag is set (`ReaderStep.left_lt`).

`stream_losesNothing` puts both beside what `Lossless` says of the items: a run that nobody disturbs
can go on, within a bounded number of steps, until the coroutine has yielded all that was read and ended
or raised. Once the stop flag is set, a pending `put` is over within one more timeout.
-/

namespace TradeStation

open Python Foundations

/-! ## What is still to be done -/

/-- For the thread, counting the `put` it is about to submit. -/
def Reader.work : Reader → ℕ
  | .finished | .died => 0
  | .waiting .exit => 1
  | .expired .exit => 2
  | .submitting _ .exit => 5
  | .closing => 6
  | .waiting .leave => 7
  | .expired .leave => 8
  | .submitting _ .leave => 11
  | .reading => 12
  | .testing => 13
  | .opening | .waiting .loop => 14
  | .expired .loop => 15
  | .submitting _ .loop => 18

/-- For the coroutine. -/
def Consumer.work : Consumer → ℕ
  | .yielding => 5
  | .getting => 4
  | .leaving _ => 3
  | .closing _ => 2
  | .joining _ => 1
  | .gone _ => 0

/-- For the thread once the stop flag is set: it tests the flag before it reads again. -/
def Reader.left : Reader → ℕ
  | .finished | .died => 0
  | .expired .exit => 1
  | .waiting .exit => 2
  | .submitting _ .exit => 3
  | .closing => 4
  | .testing | .expired .leave => 5
  | .waiting .leave | .expired .loop => 6
  | .submitting _ .leave | .waiting .loop => 7
  | .submitting _ .loop | .opening => 8
  | .reading => 9

namespace StreamLabel

/-- A step of the thread. -/
@[simp] def isReader : StreamLabel → Bool
  | .reader _ => true
  | _ => false

/-- The coroutine is closed, cancelled or thrown into, or its loop is closed, or `stream.close`
raises. -/
@[simp] def disturbs : StreamLabel → Bool
  | .consumer .stop | .consumer .closeRaises | .reader .closeRaises | .loop .close => true
  | _ => false

/-- A chunk is read, or a timeout expires. -/
@[simp] def adds : StreamLabel → Bool
  | .reader .readChunk | .reader .timeout => true
  | _ => false

/-- A step that brings the run on: no timeout, and nobody disturbs it. -/
@[simp] def goesOn (l : StreamLabel) : Bool := !l.disturbs && l ≠ .reader .timeout

/-- An `enqueue` returns. -/
@[simp] def endsPut : StreamLabel → Bool
  | .reader .putDone | .reader .giveUp => true
  | _ => false

end StreamLabel

namespace Streaming

variable {s s' : Streaming} {l : StreamLabel} {ls : List StreamLabel}

/-- What all parties still have to do. -/
def measure (s : Streaming) : ℕ :=
  s.reader.work + s.consumer.work + 3 * s.pending.toList.length + 3 * s.abandoned.length +
    2 * s.queue.items.length

theorem work_reader (next : AfterPut) :
    next.reader.work < (Reader.waiting next).work ∧
      (Reader.expired next).work = (Reader.waiting next).work + 1 ∧
      ∀ item, (Reader.submitting item next).work = (Reader.waiting next).work + 4 := by
  cases next <;> exact ⟨by decide, rfl, fun _ => rfl⟩

theorem ReaderStep.measure_le {act : ReaderAct} (h : ReaderStep s act s') :
    s'.measure + (if (StreamLabel.reader act).goesOn then 1 else 0) ≤
      s.measure + if (StreamLabel.reader act).adds then 7 else 0 := by
  cases h with
  | «open» _ h =>
    show Streaming.measure _ + 1 ≤ s.measure + 0
    simp only [measure, h, Reader.work]
    omega
  | openRaises _ _ h =>
    show Streaming.measure _ + 1 ≤ s.measure + 0
    simp only [measure, h, Reader.work]
    omega
  | test h =>
    show Streaming.measure _ + 1 ≤ s.measure + 0
    simp only [measure, h]
    split_ifs
    · simp only [Reader.work]
      omega
    · simp only [Reader.work]
      omega
  | readChunk _ h =>
    show Streaming.measure _ + 1 ≤ s.measure + 7
    simp only [measure, h, Reader.work]
    omega
  | readEof h =>
    show Streaming.measure _ + 1 ≤ s.measure + 0
    simp only [measure, h, Reader.work]
    omega
  | readRaises _ h =>
    show Streaming.measure _ + 1 ≤ s.measure + 0
    simp only [measure, h, Reader.work]
    omega
  | submit item next h =>
    obtain ⟨-, -, hsubmit⟩ := work_reader next
    show Streaming.measure _ + 1 ≤ s.measure + 0
    simp only [measure, h, hsubmit, Option.toList_some, List.length_singleton]
    omega
  | submitClosed item next h =>
    obtain ⟨hnext, -, hsubmit⟩ := work_reader next
    show Streaming.measure _ + 1 ≤ s.measure + 0
    simp only [measure, h, hsubmit]
    omega
  | putDone next h =>
    obtain ⟨hnext, -, -⟩ := work_reader next
    show Streaming.measure _ + 1 ≤ s.measure + 0
    simp only [measure, h]
    omega
  | timeout next h =>
    obtain ⟨-, hexpired, -⟩ := work_reader next
    show Streaming.measure _ + 0 ≤ s.measure + 7
    simp only [measure, h, hexpired]
    omega
  | waitAgain next h =>
    obtain ⟨-, hexpired, -⟩ := work_reader next
    show Streaming.measure _ + 1 ≤ s.measure + 0
    simp only [measure, h, hexpired]
    omega
  | giveUp next h =>
    obtain ⟨hnext, hexpired, -⟩ := work_reader next
    show Streaming.measure _ + 1 ≤ s.measure + 0
    simp only [measure, h, hexpired, Option.toList_none, List.length_nil, List.length_append]
    omega
  | close h =>
    show Streaming.measure _ + 1 ≤ s.measure + 0
    simp only [measure, h, Reader.work]
    omega
  | closeRaises h =>
    show Streaming.measure _ + 0 ≤ s.measure + 0
    simp only [measure, h, Reader.work]
    omega

theorem LoopStep.measure_le {act : LoopAct} (h : LoopStep s act s') :
    s'.measure + (if (StreamLabel.loop act).goesOn then 1 else 0) ≤ s.measure := by
  cases h with
  | put item _ hpending =>
    show Streaming.measure _ + 1 ≤ s.measure
    simp only [measure, hpending, BoundedQueue.put_items, Option.toList_some, Option.toList_none,
      List.length_append, List.length_singleton, List.length_nil]
    omega
  | putLate item before after _ hlate =>
    show Streaming.measure _ + 1 ≤ s.measure
    simp only [measure, hlate, BoundedQueue.put_items, List.length_append, List.length_cons,
      List.length_nil]
    omega
  | cancelled item before after _ hlate =>
    show Streaming.measure _ + 1 ≤ s.measure
    simp only [measure, hlate, List.length_append, List.length_cons]
    omega
  | close => exact Nat.le_refl s.measure

theorem ConsumerStep.measure_le {act : ConsumerAct} (h : ConsumerStep s act s') :
    s'.measure + (if (StreamLabel.consumer act).goesOn then 1 else 0) ≤ s.measure := by
  cases h with
  | getChunk _ _ _ h hitems =>
    show Streaming.measure _ + 1 ≤ s.measure
    simp only [measure, h, hitems, BoundedQueue.get_items, Consumer.work, List.length_cons]
    omega
  | getError _ _ _ h hitems =>
    show Streaming.measure _ + 1 ≤ s.measure
    simp only [measure, h, hitems, BoundedQueue.get_items, Consumer.work, List.length_cons]
    omega
  | getDone _ _ h hitems =>
    show Streaming.measure _ + 1 ≤ s.measure
    simp only [measure, h, hitems, BoundedQueue.get_items, Consumer.work, List.length_cons]
    omega
  | resume _ h =>
    show Streaming.measure _ + 1 ≤ s.measure
    simp only [measure, h, Consumer.work]
    omega
  | stop _ h =>
    show Streaming.measure _ + 0 ≤ s.measure
    rcases h with h | h
    · simp only [measure, h, Consumer.work]
      omega
    · simp only [measure, h, Consumer.work]
      omega
  | setStop _ _ h =>
    show Streaming.measure _ + 1 ≤ s.measure
    simp only [measure, h, Consumer.work]
    omega
  | close _ _ h =>
    show Streaming.measure _ + 1 ≤ s.measure
    simp only [measure, h, Consumer.work]
    omega
  | closeRaises _ _ h =>
    show Streaming.measure _ + 0 ≤ s.measure
    simp only [measure, h, Consumer.work]
    omega
  | join _ _ h =>
    show Streaming.measure _ + 1 ≤ s.measure
    simp only [measure, h, Consumer.work]
    omega
  | interrupt _ _ h =>
    show Streaming.measure _ + 0 ≤ s.measure
    rcases h with h | h
    · simp only [measure, h, Consumer.work]
      omega
    · simp only [measure, h, Consumer.work]
      omega

/-- **Only a chunk and a timeout add to what is still to be done**, and every other step takes from
it. -/
theorem Step.measure_le (h : Step s l s') :
    s'.measure + (if l.goesOn then 1 else 0) ≤ s.measure + if l.adds then 7 else 0 := by
  cases h with
  | reader h => exact h.measure_le
  | loop h => exact h.measure_le.trans (Nat.le_add_right _ _)
  | consumer h => exact h.measure_le.trans (Nat.le_add_right _ _)

/-- A run has a bounded number of steps, for what has been read and for the timeouts. -/
theorem goesOn_le (h : Path Step start ls s) :
    ls.countP StreamLabel.goesOn ≤ 18 + 7 * ls.countP StreamLabel.adds := by
  have hcount := h.accountMul (fun _ => True) measure StreamLabel.adds StreamLabel.goesOn 7
    (fun _ _ => trivial) fun h _ => h.measure_le
  have hstart : start.measure = 18 := rfl
  omega

/-! ## There is always a way on -/

/-- The thread can go on unless it is through. It does so without a timeout where the event loop has
done its `put`. -/
theorem exists_readerStep (hstream : s.reader ≠ .finished) (hlive : s.reader ≠ .died) :
    (∃ act s', ReaderStep s act s') ∧
      (s.pending = none → ∃ act s', (StreamLabel.reader act).goesOn = true ∧ ReaderStep s act s') := by
  have hgo : ∀ {act s'}, ReaderStep s act s' → (StreamLabel.reader act).goesOn = true →
      (∃ act s', ReaderStep s act s') ∧
        (s.pending = none →
          ∃ act s', (StreamLabel.reader act).goesOn = true ∧ ReaderStep s act s') :=
    fun h hgoes => ⟨⟨_, _, h⟩, fun _ => ⟨_, _, hgoes, h⟩⟩
  cases hreader : s.reader with
  | opening => exact hgo (.open s .opened hreader rfl) rfl
  | testing => exact hgo (.test s hreader) rfl
  | reading => exact hgo (.readEof s hreader) rfl
  | submitting item next =>
    cases hloop : s.loopOpen with
    | true => exact hgo (.submit s item next hreader hloop) rfl
    | false => exact hgo (.submitClosed s item next hreader hloop) rfl
  | waiting next =>
    refine ⟨⟨_, _, .timeout s next hreader⟩, fun hpending => ?_⟩
    exact ⟨_, _, rfl, .putDone s next hreader hpending⟩
  | expired next =>
    cases hstop : s.stop with
    | false => exact hgo (.waitAgain s next hreader hstop) rfl
    | true => exact hgo (.giveUp s next hreader hstop) rfl
  | closing => exact hgo (.close s hreader) rfl
  | finished => exact absurd hreader hstream
  | died => exact absurd hreader hlive

/-- Where nothing is left to take, and nothing to put, the thread is not through. -/
theorem Flow.not_finished (h : s.Flow) (hempty : s.queue.items = []) (hpending : s.pending = none) :
    s.reader ≠ .finished := by
  intro hfinished
  have hsent := h.sent
  rw [s.queue.conserved, hempty, List.append_nil, h.taken, hpending, hfinished] at hsent
  have hdone : StreamItem.done ∈ s.read.map StreamItem.chunk ++
      (StreamEnding.items s.ending ++ Reader.finished.mark) :=
    List.mem_append_right _ (List.mem_append_right _ (List.mem_singleton_self _))
  rw [← hsent] at hdone
  simp [Reader.unsent] at hdone

/-- **A run that nobody disturbs can go on until the coroutine has gone.** -/
theorem exists_step (hs : s.Inv) (hloop : s.loopOpen = true) (hlive : s.reader ≠ .died)
    (hgone : ∀ o, s.consumer ≠ .gone o) : ∃ l s', l.goesOn = true ∧ Step s l s' := by
  cases hconsumer : s.consumer with
  | getting =>
    have hflow : s.Flow := hs.flow (by rw [hconsumer]; trivial) hloop
    cases hitems : s.queue.items with
    | cons item rest =>
      cases item with
      | chunk bytes => exact ⟨_, _, rfl, .consumer (.getChunk s bytes rest hloop hconsumer hitems)⟩
      | error e => exact ⟨_, _, rfl, .consumer (.getError s e rest hloop hconsumer hitems)⟩
      | done => exact ⟨_, _, rfl, .consumer (.getDone s rest hloop hconsumer hitems)⟩
    | nil =>
      cases hpending : s.pending with
      | some item =>
        have hroom : s.queue.items.length < streamQueueMaxChunks := by
          rw [hitems]
          decide
        exact ⟨_, _, rfl, .loop (.put s item hloop hpending hroom)⟩
      | none =>
        obtain ⟨act, s', hgoes, h⟩ := (exists_readerStep (hflow.not_finished hitems hpending) hlive).2 hpending
        exact ⟨_, s', hgoes, .reader h⟩
  | yielding => exact ⟨_, _, rfl, .consumer (.resume s hloop hconsumer)⟩
  | leaving o => exact ⟨_, _, rfl, .consumer (.setStop s o hloop hconsumer)⟩
  | closing o => exact ⟨_, _, rfl, .consumer (.close s o hloop hconsumer)⟩
  | joining o => exact ⟨_, _, rfl, .consumer (.join s o hloop hconsumer)⟩
  | gone o => exact absurd hconsumer (hgone o)

/-- What holds as long as nobody disturbs the run. -/
structure Calm (s : Streaming) : Prop where
  loopOpen : s.loopOpen = true
  live : s.reader ≠ .died
  outcome : ∀ o ∈ s.consumer.outcome, o = .ended ∨ ∃ e, o = .raised e

theorem Step.calm (h : Step s l s') (hl : l.disturbs = false) (hs : s.Calm) : s'.Calm := by
  obtain ⟨hloop, hlive, houtcome⟩ := hs
  cases h with
  | reader h =>
    obtain ⟨-, -, hloop', hconsumer, -⟩ := h.frame
    refine ⟨hloop'.trans hloop, ?_, by rw [hconsumer]; exact houtcome⟩
    cases h with
    | closeRaises => cases hl
    | test => dsimp only; split_ifs <;> exact Reader.noConfusion
    | submitClosed item next => cases next <;> exact Reader.noConfusion
    | putDone next => cases next <;> exact Reader.noConfusion
    | giveUp next => cases next <;> exact Reader.noConfusion
    | _ => exact Reader.noConfusion
  | loop h =>
    obtain ⟨hreader, -, hconsumer, -⟩ := h.frame
    refine ⟨?_, by rw [hreader]; exact hlive, by rw [hconsumer]; exact houtcome⟩
    cases h with
    | close => cases hl
    | _ => exact hloop
  | consumer h =>
    obtain ⟨hreader, -, -, hloop', -⟩ := h.frame
    refine ⟨hloop'.trans hloop, by rw [hreader]; exact hlive, ?_⟩
    have hleft : ∀ {c o}, s.consumer = c → c.outcome = some o → o = .ended ∨ ∃ e, o = .raised e :=
      fun hc ho => houtcome _ (by rw [hc]; exact ho)
    intro o ho
    cases h with
    | getChunk => cases ho
    | getError e => cases ho; exact .inr ⟨e, rfl⟩
    | getDone => cases ho; exact .inl rfl
    | resume => cases ho
    | stop => cases hl
    | setStop _ _ h => cases ho; exact hleft h rfl
    | close _ _ h => cases ho; exact hleft h rfl
    | closeRaises => cases hl
    | join _ _ h => cases ho; exact hleft h rfl
    | interrupt => cases hl

theorem calm_start : start.Calm := ⟨rfl, Reader.noConfusion, fun _ h => by cases h⟩

/-- **A run that nobody disturbs** either can go on, or the coroutine has ended or raised. -/
theorem goesOn_or_told (h : Path Step start ls s) (hls : ∀ l ∈ ls, l.disturbs = false) :
    (∃ l s', l.goesOn = true ∧ Step s l s') ∨
      ∃ o, s.consumer = .gone o ∧ (o = .ended ∨ ∃ e, o = .raised e) := by
  have hcalm : s.Calm := h.invariant (·.disturbs = false) hls (fun h => h.calm) calm_start
  by_cases hgone : ∃ o, s.consumer = .gone o
  · obtain ⟨o, ho⟩ := hgone
    exact .inr ⟨o, ho, hcalm.outcome o (by rw [ho]; rfl)⟩
  · exact .inl (exists_step (inv_of_path h) hcalm.loopOpen hcalm.live (not_exists.1 hgone))

/-! ## After the stop flag -/

theorem Step.stop_mono (h : Step s l s') (hstop : s.stop = true) : s'.stop = true := by
  cases h with
  | reader h => exact h.frame.2.1.trans hstop
  | loop h => exact h.frame.2.1.trans hstop
  | consumer h =>
    cases h with
    | setStop => rfl
    | _ => exact hstop

theorem left_reader (next : AfterPut) :
    next.reader.left < (Reader.expired next).left ∧
      (Reader.waiting next).left = (Reader.expired next).left + 1 ∧
      ∀ item, (Reader.submitting item next).left = (Reader.expired next).left + 2 := by
  cases next <;> exact ⟨by decide, rfl, fun _ => rfl⟩

/-- **Once the stop flag is set, every step of the thread brings it to its end.** -/
theorem ReaderStep.left_lt {act : ReaderAct} (h : ReaderStep s act s') (hstop : s.stop = true) :
    s'.reader.left < s.reader.left := by
  cases h with
  | «open» _ h =>
    rw [h]
    show 5 < 8
    omega
  | openRaises _ _ h =>
    rw [h]
    show 7 < 8
    omega
  | test h =>
    rw [h, hstop]
    show 4 < 5
    omega
  | readChunk _ h =>
    rw [h]
    show 8 < 9
    omega
  | readEof h =>
    rw [h]
    show 4 < 9
    omega
  | readRaises _ h =>
    rw [h]
    show 7 < 9
    omega
  | submit item next h =>
    obtain ⟨-, hwaiting, hsubmit⟩ := left_reader next
    rw [h, hsubmit]
    show (Reader.waiting next).left < _
    omega
  | submitClosed item next h =>
    obtain ⟨hnext, -, hsubmit⟩ := left_reader next
    rw [h, hsubmit]
    show next.reader.left < _
    omega
  | putDone next h =>
    obtain ⟨hnext, hwaiting, -⟩ := left_reader next
    rw [h, hwaiting]
    show next.reader.left < _
    omega
  | timeout next h =>
    obtain ⟨-, hwaiting, -⟩ := left_reader next
    rw [h, hwaiting]
    show (Reader.expired next).left < _
    omega
  | waitAgain next h hnot =>
    rw [hstop] at hnot
    cases hnot
  | giveUp next h =>
    rw [h]
    exact (left_reader next).1
  | close h =>
    rw [h]
    show 3 < 4
    omega
  | closeRaises h =>
    rw [h]
    show 0 < 4
    omega

/-- A run on which the stop flag is set from the start. -/
theorem path_stopped (h : Path Step s ls s') (hstop : s.stop = true) :
    Path (fun s l s' => Step s l s' ∧ s.stop = true) s ls s' :=
  h.refine (fun _ => True) (fun _ _ => trivial) (fun h _ hs => ⟨⟨h, hs⟩, h.stop_mono hs⟩) hstop

theorem left_le_nine (r : Reader) : r.left ≤ 9 := by
  unfold Reader.left
  split <;> decide

/-- The thread is through within nine steps of its own. -/
theorem reader_le_nine (h : Path Step s ls s') (hstop : s.stop = true) :
    ls.countP StreamLabel.isReader ≤ 9 := by
  have hcount := (path_stopped h hstop).account (fun _ => True) (fun s => s.reader.left)
    (fun _ => false) StreamLabel.isReader (fun _ _ => trivial) (fun {s l s'} h _ => ?_)
  · have hle := left_le_nine s.reader
    have hnone : ls.countP (fun _ => false) = 0 := List.countP_eq_zero.2 fun _ _ => Bool.false_ne_true
    omega
  · obtain ⟨h, hs⟩ := h
    cases h with
    | reader h =>
      have hlt := h.left_lt hs
      simp only [StreamLabel.isReader, if_true, Bool.false_eq_true, if_false]
      omega
    | loop h => simp [h.frame.1]
    | consumer h => simp [h.frame.1]

/-- In a `put` the thread can only see one more timeout before it gives the `put` up. -/
theorem ReaderStep.putting {act : ReaderAct} (h : ReaderStep s act s') (hstop : s.stop = true)
    (hputting : s.reader.Putting) (hact : (StreamLabel.reader act).endsPut = false) :
    act = .timeout ∧ ∃ next, s.reader = .waiting next ∧ s'.reader = .expired next := by
  have hat : ∀ {r}, s.reader = r → r.Putting := fun hr => hr ▸ hputting
  cases h with
  | timeout next h => exact ⟨rfl, next, h, rfl⟩
  | waitAgain next h hnot =>
    rw [hstop] at hnot
    cases hnot
  | putDone => cases hact
  | giveUp => cases hact
  | «open» _ h => exact (hat h).elim
  | openRaises _ _ h => exact (hat h).elim
  | test h => exact (hat h).elim
  | readChunk _ h => exact (hat h).elim
  | readEof h => exact (hat h).elim
  | readRaises _ h => exact (hat h).elim
  | submit _ _ h => exact (hat h).elim
  | submitClosed _ _ h => exact (hat h).elim
  | close h => exact (hat h).elim
  | closeRaises h => exact (hat h).elim

/-- In a `put`, with the stop flag set. -/
structure InPut (s : Streaming) : Prop where
  stop : s.stop = true
  putting : s.reader.Putting

/-- How many timeouts the thread can still see in a `put`. -/
def timeoutsLeft (s : Streaming) : ℕ :=
  match s.reader with
  | .waiting _ => 1
  | _ => 0

theorem timeoutsLeft_le (s : Streaming) : s.timeoutsLeft ≤ 1 := by
  unfold timeoutsLeft
  split <;> decide

/-- A step that does not end the `put` is a timeout of the thread, or none of its steps. -/
theorem Step.inPut (h : Step s l s') (hl : l.endsPut = false) (hs : s.InPut) :
    s'.InPut ∧ s'.timeoutsLeft + (if l.isReader then 1 else 0) ≤ s.timeoutsLeft ∧
      ∀ act, l = .reader act → act = .timeout := by
  have hstop := h.stop_mono hs.stop
  cases h with
  | reader h =>
    obtain ⟨rfl, next, hwaiting, hexpired⟩ := h.putting hs.stop hs.putting hl
    refine ⟨⟨hstop, by rw [hexpired]; trivial⟩, ?_, fun act hact => ?_⟩
    · simp [timeoutsLeft, hwaiting, hexpired]
    · cases hact
      rfl
  | loop h =>
    refine ⟨⟨hstop, by rw [h.frame.1]; exact hs.putting⟩, ?_, fun _ => StreamLabel.noConfusion⟩
    simp [timeoutsLeft, h.frame.1]
  | consumer h =>
    refine ⟨⟨hstop, by rw [h.frame.1]; exact hs.putting⟩, ?_, fun _ => StreamLabel.noConfusion⟩
    simp [timeoutsLeft, h.frame.1]

/-- **A `put` is over within one more timeout** once the stop flag is set: until then the thread takes
one step at most, and that is a timeout. -/
theorem put_le_one (h : Path Step s ls s') (hs : s.InPut) (hls : ∀ l ∈ ls, l.endsPut = false) :
    ls.countP StreamLabel.isReader ≤ 1 ∧ ∀ act, .reader act ∈ ls → act = .timeout := by
  suffices hcount : ls.countP StreamLabel.isReader ≤ s.timeoutsLeft ∧
      ∀ act, .reader act ∈ ls → act = .timeout from
    ⟨hcount.1.trans (timeoutsLeft_le s), hcount.2⟩
  induction h with
  | nil => exact ⟨Nat.zero_le _, fun _ hmem => absurd hmem List.not_mem_nil⟩
  | cons head _ ih =>
    obtain ⟨hs', hleft, htimeout⟩ := head.inPut (hls _ List.mem_cons_self) hs
    obtain ⟨hcount, hall⟩ := ih hs' fun l hl => hls l (List.mem_cons_of_mem _ hl)
    rw [List.countP_cons]
    refine ⟨by omega, fun act hmem => ?_⟩
    rcases List.mem_cons.1 hmem with hact | hmem
    · exact htimeout act hact.symm
    · exact hall act hmem

/-- Where the coroutine is behind `stop_requested.set()`. -/
def Flagged (s : Streaming) : Prop :=
  match s.consumer with
  | .getting | .yielding | .leaving _ => True
  | .closing _ | .joining _ | .gone _ => s.stop = true

theorem Step.flagged (h : Step s l s') (hs : s.Flagged) : s'.Flagged := by
  cases h with
  | reader h =>
    obtain ⟨-, hstop, -, hconsumer, -⟩ := h.frame
    rwa [Flagged, hconsumer, hstop]
  | loop h =>
    obtain ⟨-, hstop, hconsumer, -⟩ := h.frame
    rwa [Flagged, hconsumer, hstop]
  | consumer h =>
    cases h with
    | getChunk => trivial
    | getError => trivial
    | getDone => trivial
    | resume => trivial
    | stop => trivial
    | setStop => exact rfl
    | close _ _ h =>
      rw [Flagged, h] at hs
      exact hs
    | closeRaises _ _ h =>
      rw [Flagged, h] at hs
      exact hs
    | join _ _ h =>
      rw [Flagged, h] at hs
      exact hs
    | interrupt _ _ h =>
      rcases h with h | h
      · rw [Flagged, h] at hs
        exact hs
      · rw [Flagged, h] at hs
        exact hs

end Streaming

/-! ## The stream -/

open Streaming

/-- **The threaded reader loses nothing**, on any run.

What has been yielded is the beginning of what has been read. Where the coroutine has left its loop
without being disturbed, all has been yielded, and it ends where the reading ended, or raises the error
for what the reading raised.

As long as nobody disturbs the run, it can go on until the coroutine has gone that way, and takes a
bounded number of steps for each chunk that is read and each timeout that expires.

From the stop flag on, which the coroutine sets first whatever it leaves its loop for, the thread is
through within nine steps, until when it can always take one, and a `put` is over within one more
timeout. -/
theorem stream_losesNothing (ls : List StreamLabel) (s : Streaming) (h : Path Step start ls s) :
    s.yielded <+: s.read ∧
    (∀ o, s.consumer.outcome = some o → s.Told o) ∧
    ((∀ l ∈ ls, l.disturbs = false) →
      (∃ l s', l.goesOn = true ∧ Step s l s') ∨
        ∃ o, s.consumer = .gone o ∧ (o = .ended ∨ ∃ e, o = .raised e)) ∧
    ls.countP StreamLabel.goesOn ≤ 18 + 7 * ls.countP StreamLabel.adds ∧
    s.Flagged ∧
    (s.stop = true →
      (s.reader ≠ .finished → s.reader ≠ .died → ∃ act s', ReaderStep s act s') ∧
      ∀ ls' s', Path Step s ls' s' →
        ls'.countP StreamLabel.isReader ≤ 9 ∧
        (s.reader.Putting → (∀ l ∈ ls', l.endsPut = false) →
          ls'.countP StreamLabel.isReader ≤ 1 ∧ ∀ act, .reader act ∈ ls' → act = .timeout)) := by
  have hinv := inv_of_path h
  have hflagged : s.Flagged :=
    h.invariant (fun _ => True) (fun _ _ => trivial) (fun h _ => h.flagged) trivial
  refine ⟨hinv.yielded, hinv.told, goesOn_or_told h, goesOn_le h, hflagged, fun hstop => ⟨?_, ?_⟩⟩
  · intro hstream hlive
    exact (exists_readerStep hstream hlive).1
  · intro ls' s' h'
    exact ⟨reader_le_nine h' hstop, fun hputting => put_le_one h' ⟨hstop, hputting⟩⟩

/-- A run with one chunk and an expired timeout, up to the end. -/
theorem stream_losesNothing_chunk :
    ∃ ls s, Path Step start ls s ∧ .reader .timeout ∈ ls ∧ s.consumer = .gone .ended ∧
      s.yielded = [[0x7b, 0x7d]] ∧ s.Told .ended := by
  have run : Path Step start _ _ :=
    .cons (.reader (.open _ .opened rfl rfl)) <|
    .cons (.reader (.test _ rfl)) <|
    .cons (.reader (.readChunk _ [0x7b, 0x7d] rfl (by decide))) <|
    .cons (.reader (.submit _ (.chunk [0x7b, 0x7d]) .loop rfl rfl)) <|
    .cons (.reader (.timeout _ .loop rfl)) <|
    .cons (.reader (.waitAgain _ .loop rfl rfl)) <|
    .cons (.loop (.put _ (.chunk [0x7b, 0x7d]) rfl rfl (by decide))) <|
    .cons (.consumer (.getChunk _ [0x7b, 0x7d] [] rfl rfl rfl)) <|
    .cons (.reader (.putDone _ .loop rfl rfl)) <|
    .cons (.reader (.test _ rfl)) <|
    .cons (.reader (.readEof _ rfl)) <|
    .cons (.reader (.close _ rfl)) <|
    .cons (.reader (.submit _ .done .exit rfl rfl)) <|
    .cons (.consumer (.resume _ rfl rfl)) <|
    .cons (.loop (.put _ .done rfl rfl (by decide))) <|
    .cons (.consumer (.getDone _ [] rfl rfl rfl)) <|
    .cons (.consumer (.setStop _ .ended rfl rfl)) <|
    .cons (.consumer (.close _ .ended rfl rfl)) <|
    .cons (.consumer (.join _ .ended rfl rfl)) <|
    .nil _
  have htold := (stream_losesNothing _ _ run).2.1 .ended rfl
  exact ⟨_, _, run, by decide, rfl, rfl, htold⟩

end TradeStation
