import TradeStation.Stream.ReaderThread

/-!
# The threaded reader loses nothing

While the coroutine takes items, what has been put into the queue, what waits to be put and what the
thread is about to submit are together what has been read, with the error and the end behind it
(`Flow`). So what is yielded is the beginning of what was read, and whoever finds the error or the end
has had it all (`Told`). `inv_of_path` says so of every state of every run.
-/

namespace TradeStation

open Python Foundations

/-! ## What each place stands for -/

/-- The end, where the `put` is the one of `None`. -/
def AfterPut.mark : AfterPut → List StreamItem
  | .exit => [.done]
  | _ => []

namespace Reader

/-- The item that has not been submitted yet. -/
def unsent : Reader → List StreamItem
  | .submitting item _ => [item]
  | _ => []

/-- The end, where the thread has come to it. -/
def mark : Reader → List StreamItem
  | .submitting _ next | .waiting next | .expired next => next.mark
  | .finished => [.done]
  | _ => []

/-- In `enqueue`, behind `run_coroutine_threadsafe`. -/
def Putting : Reader → Prop
  | .waiting _ | .expired _ => True
  | _ => False

/-- The thread does not read any more. -/
def Over : Reader → Prop
  | .opening | .testing | .reading => False
  | .submitting _ next | .waiting next | .expired next => next ≠ .loop
  | .closing | .finished | .died => True

/-- Only the end is marked, and only behind the loop. -/
theorem mem_mark {reader : Reader} {item : StreamItem} (h : item ∈ reader.mark) :
    item = .done ∧ reader.Over := by
  have hnext : ∀ next : AfterPut, item ∈ next.mark → item = .done ∧ next ≠ .loop := by
    rintro (_ | _ | _) hmem
    · exact absurd hmem List.not_mem_nil
    · exact absurd hmem List.not_mem_nil
    · exact ⟨List.mem_singleton.1 hmem, AfterPut.noConfusion⟩
  cases reader with
  | submitting _ next => exact hnext next h
  | waiting next => exact hnext next h
  | expired next => exact hnext next h
  | finished => exact ⟨List.mem_singleton.1 h, trivial⟩
  | _ => exact absurd h List.not_mem_nil

end Reader

namespace AfterPut

@[simp] theorem unsent_reader (next : AfterPut) : next.reader.unsent = [] := by
  cases next <;> rfl

@[simp] theorem mark_reader (next : AfterPut) : next.reader.mark = next.mark := by
  cases next <;> rfl

@[simp] theorem over_reader (next : AfterPut) : next.reader.Over ↔ next ≠ .loop := by
  cases next <;> simp [reader, Reader.Over]

@[simp] theorem not_putting_reader (next : AfterPut) : ¬next.reader.Putting := by
  cases next <;> exact id

end AfterPut

/-- The error that the reading ended with. -/
def StreamEnding.items : Option StreamEnding → List StreamItem
  | some (.raised e) => [.error (readerError e)]
  | _ => []

namespace Consumer

/-- In the loop. -/
def Active : Consumer → Prop
  | .getting | .yielding => True
  | _ => False

/-- How the loop was left. -/
def outcome : Consumer → Option StreamOutcome
  | .getting | .yielding => none
  | .leaving o | .closing o | .joining o | .gone o => some o

end Consumer

namespace Streaming

variable {s s' : Streaming}

/-- While the coroutine takes items, none is lost on the way to it. -/
structure Flow (s : Streaming) : Prop where
  stop : s.stop = false
  abandoned : s.abandoned = []
  taken : s.queue.taken = s.yielded.map .chunk
  sent : s.queue.accepted ++ (s.pending.toList ++ s.reader.unsent) =
    s.read.map .chunk ++ (StreamEnding.items s.ending ++ s.reader.mark)
  ending : s.reader.Over → s.ending ≠ none

/-- The coroutine has left its loop as the reading ended, and with all that was read, unless it was
disturbed. -/
def Told (s : Streaming) : StreamOutcome → Prop
  | .ended => s.ending = some .eof ∧ s.yielded = s.read
  | .raised e =>
    ∃ cause, s.ending = some (.raised cause) ∧ e = readerError cause ∧ s.yielded = s.read
  | .stopped | .closeRaised => True

/-- What holds in every state. -/
structure Inv (s : Streaming) : Prop where
  flow : s.consumer.Active → s.loopOpen = true → s.Flow
  idle : ¬s.reader.Putting → s.pending = none
  past : s.ending ≠ none → s.reader.Over
  yielded : s.yielded <+: s.read
  told : ∀ o ∈ s.consumer.outcome, s.Told o

theorem chunk_injective : Function.Injective StreamItem.chunk := fun _ _ h => by
  cases h
  rfl

/-- No data is behind the data. -/
theorem chunk_not_mem (ending : Option StreamEnding) (reader : Reader) (bytes : List UInt8) :
    .chunk bytes ∉ StreamEnding.items ending ++ reader.mark := by
  have hending : StreamItem.chunk bytes ∉ StreamEnding.items ending := by
    rcases ending with _ | _ | e <;> simp [StreamEnding.items]
  have hmark : StreamItem.chunk bytes ∉ reader.mark := by
    intro hmem
    exact StreamItem.noConfusion (Reader.mem_mark hmem).1
  simp [hending, hmark]

/-- The next item goes on with what was read. -/
theorem Flow.next {item : StreamItem} {rest : List StreamItem} (h : s.Flow)
    (hitems : s.queue.items = item :: rest) :
    ∃ more, s.yielded.map .chunk ++ item :: more =
      s.read.map .chunk ++ (StreamEnding.items s.ending ++ s.reader.mark) := by
  refine ⟨rest ++ (s.pending.toList ++ s.reader.unsent), ?_⟩
  rw [← h.sent, BoundedQueue.accepted_eq hitems, h.taken, List.append_assoc, List.cons_append]

/-- If it is data, it was read behind what has been yielded. -/
theorem Flow.chunk {bytes : List UInt8} {rest : List StreamItem} (h : s.Flow)
    (hitems : s.queue.items = .chunk bytes :: rest) : s.yielded ++ [bytes] <+: s.read := by
  obtain ⟨more, hmore⟩ := h.next hitems
  exact prefix_of_map_append chunk_injective (chunk_not_mem s.ending s.reader) hmore

/-- If it is an error, the reading ended with it and all has been yielded. -/
theorem Flow.error {e : Exc} {rest : List StreamItem} (h : s.Flow)
    (hitems : s.queue.items = .error e :: rest) :
    s.Told (.raised e) := by
  obtain ⟨more, hmore⟩ := h.next hitems
  obtain ⟨hall, htail⟩ := eq_of_map_append chunk_injective (chunk_not_mem s.ending s.reader)
    (fun _ => StreamItem.noConfusion) hmore
  have hmark : .error e :: more ≠ s.reader.mark := fun h =>
    StreamItem.noConfusion (Reader.mem_mark (h ▸ List.mem_cons_self)).1
  rcases hending : s.ending with _ | _ | cause
  · rw [hending] at htail
    exact absurd htail hmark
  · rw [hending] at htail
    exact absurd htail hmark
  · rw [hending] at htail
    cases htail
    exact ⟨cause, hending, rfl, hall⟩

/-- If it is the end, the reading ended with that and all has been yielded. -/
theorem Flow.done {rest : List StreamItem} (h : s.Flow) (hitems : s.queue.items = .done :: rest) :
    s.Told .ended := by
  obtain ⟨more, hmore⟩ := h.next hitems
  obtain ⟨hall, htail⟩ := eq_of_map_append chunk_injective (chunk_not_mem s.ending s.reader)
    (fun _ => StreamItem.noConfusion) hmore
  rcases hending : s.ending with _ | _ | cause
  · rw [hending] at htail
    have hmark : .done :: more = s.reader.mark := htail
    have hover := (Reader.mem_mark (hmark ▸ List.mem_cons_self)).2
    exact absurd hending (h.ending hover)
  · exact ⟨hending, hall⟩
  · rw [hending] at htail
    cases htail

/-- What was told stays true as long as no more is read. -/
theorem Told.congr {o : StreamOutcome} (h : s.Told o) (hyielded : s'.yielded = s.yielded)
    (hsame : s.ending ≠ none → s'.ending = s.ending ∧ s'.read = s.read) : s'.Told o := by
  have hfixed : ∀ {ending}, s.ending = some ending → s.yielded = s.read →
      s'.ending = some ending ∧ s'.yielded = s'.read := by
    intro ending hending hall
    obtain ⟨hending', hread⟩ := hsame (by rw [hending]; exact Option.some_ne_none _)
    exact ⟨hending'.trans hending, by rw [hyielded, hread, hall]⟩
  cases o with
  | ended => exact hfixed h.1 h.2
  | raised e =>
    obtain ⟨cause, hending, he, hall⟩ := h
    obtain ⟨hending', hall'⟩ := hfixed hending hall
    exact ⟨cause, hending', he, hall'⟩
  | stopped => trivial
  | closeRaised => trivial

/-! ## Steps of the thread -/

/-- What the thread does not touch. -/
theorem ReaderStep.frame {act : ReaderAct} (h : ReaderStep s act s') :
    s'.queue = s.queue ∧ s'.stop = s.stop ∧ s'.loopOpen = s.loopOpen ∧ s'.consumer = s.consumer ∧
      s'.yielded = s.yielded := by
  cases h <;> exact ⟨rfl, rfl, rfl, rfl, rfl⟩

theorem ReaderStep.read_prefix {act : ReaderAct} (h : ReaderStep s act s') : s.read <+: s'.read := by
  cases h with
  | readChunk bytes => exact List.prefix_append _ _
  | _ => exact List.prefix_rfl

/-- Behind the loop nothing is read. -/
theorem ReaderStep.past {act : ReaderAct} (h : ReaderStep s act s') (hover : s.reader.Over) :
    s'.ending = s.ending ∧ s'.read = s.read ∧ s'.reader.Over := by
  have hat : ∀ {r}, s.reader = r → r.Over := fun hr => hr ▸ hover
  cases h with
  | «open» _ h => exact (hat h).elim
  | openRaises _ _ h => exact (hat h).elim
  | test h => exact (hat h).elim
  | readChunk _ h => exact (hat h).elim
  | readEof h => exact (hat h).elim
  | readRaises _ h => exact (hat h).elim
  | submit _ next h =>
    have hnext := hat h
    exact ⟨rfl, rfl, hnext⟩
  | submitClosed _ next h => exact ⟨rfl, rfl, next.over_reader.2 (hat h)⟩
  | putDone next h => exact ⟨rfl, rfl, next.over_reader.2 (hat h)⟩
  | timeout next h =>
    have hnext := hat h
    exact ⟨rfl, rfl, hnext⟩
  | waitAgain next h =>
    have hnext := hat h
    exact ⟨rfl, rfl, hnext⟩
  | giveUp next h => exact ⟨rfl, rfl, next.over_reader.2 (hat h)⟩
  | close => exact ⟨rfl, rfl, AfterPut.noConfusion⟩
  | closeRaises => exact ⟨rfl, rfl, trivial⟩

/-- The reading ends as the loop does. -/
theorem ReaderStep.ending {act : ReaderAct} (h : ReaderStep s act s') :
    s'.ending = s.ending ∨ s'.reader.Over := by
  cases h with
  | openRaises => exact .inr AfterPut.noConfusion
  | readEof => exact .inr trivial
  | readRaises => exact .inr AfterPut.noConfusion
  | _ => exact .inl rfl

theorem ReaderStep.idle {act : ReaderAct} (h : ReaderStep s act s')
    (hidle : ¬s.reader.Putting → s.pending = none) : ¬s'.reader.Putting → s'.pending = none := by
  have hat : ∀ {r}, s.reader = r → ¬r.Putting → s.pending = none := fun hr hnot => hidle (hr ▸ hnot)
  intro hnot
  cases h with
  | submit => exact absurd trivial hnot
  | timeout => exact absurd trivial hnot
  | waitAgain => exact absurd trivial hnot
  | putDone _ _ hpending => exact hpending
  | giveUp => rfl
  | «open» _ h => exact hat h id
  | openRaises _ _ h => exact hat h id
  | test h => exact hat h id
  | readChunk _ h => exact hat h id
  | readEof h => exact hat h id
  | readRaises _ h => exact hat h id
  | submitClosed _ _ h => exact hat h id
  | close h => exact hat h id
  | closeRaises h => exact hat h id

/-- What the thread does loses nothing. -/
theorem ReaderStep.flow {act : ReaderAct} (h : ReaderStep s act s')
    (hidle : ¬s.reader.Putting → s.pending = none) (hover : s.ending ≠ none → s.reader.Over)
    (hloop : s.loopOpen = true) (hflow : s.Flow) : s'.Flow := by
  obtain ⟨hstop, habandoned, htaken, hsent, hending⟩ := hflow
  have hnone : ∀ {r}, s.reader = r → ¬r.Putting → s.pending = none := fun hr hnot => hidle (hr ▸ hnot)
  have hopen : ∀ {r}, s.reader = r → ¬r.Over → s.ending = none :=
    fun hr hnot => not_not.1 fun hne => hnot (hr ▸ hover hne)
  have hends : ∀ {r}, s.reader = r → r.Over → s.ending ≠ none := fun hr hr' => hending (hr ▸ hr')
  cases h with
  | «open» _ h =>
    refine ⟨hstop, habandoned, htaken, ?_, False.elim⟩
    rw [h] at hsent
    exact hsent
  | openRaises _ e h =>
    refine ⟨hstop, habandoned, htaken, ?_, fun _ => Option.some_ne_none _⟩
    rw [h, hnone h id, hopen h id] at hsent
    rw [hnone h id]
    simpa [Reader.unsent, Reader.mark, AfterPut.mark, StreamEnding.items] using hsent
  | test h =>
    have hreading : (if s.stop = true then Reader.closing else .reading) = .reading :=
      if_neg (by rw [hstop]; decide)
    rw [hreading]
    refine ⟨hstop, habandoned, htaken, ?_, False.elim⟩
    rw [h] at hsent
    exact hsent
  | readChunk bytes h =>
    refine ⟨hstop, habandoned, htaken, ?_, fun hover' => absurd rfl hover'⟩
    rw [h, hnone h id, hopen h id] at hsent
    rw [hnone h id, hopen h id]
    simpa [Reader.unsent, Reader.mark, AfterPut.mark, StreamEnding.items] using hsent
  | readEof h =>
    refine ⟨hstop, habandoned, htaken, ?_, fun _ => Option.some_ne_none _⟩
    rw [h, hopen h id] at hsent
    exact hsent
  | readRaises e h =>
    refine ⟨hstop, habandoned, htaken, ?_, fun _ => Option.some_ne_none _⟩
    rw [h, hnone h id, hopen h id] at hsent
    rw [hnone h id]
    simpa [Reader.unsent, Reader.mark, AfterPut.mark, StreamEnding.items] using hsent
  | submit item next h =>
    refine ⟨hstop, habandoned, htaken, ?_, fun hover' => hends h hover'⟩
    rw [h, hnone h id] at hsent
    exact hsent
  | submitClosed item next h hclosed =>
    rw [hloop] at hclosed
    cases hclosed
  | putDone next h hpending =>
    refine ⟨hstop, habandoned, htaken, ?_, fun hover' => hends h (next.over_reader.1 hover')⟩
    rw [h] at hsent
    show s.queue.accepted ++ (s.pending.toList ++ next.reader.unsent) =
      s.read.map .chunk ++ (StreamEnding.items s.ending ++ next.reader.mark)
    rw [next.unsent_reader, next.mark_reader]
    exact hsent
  | timeout next h =>
    refine ⟨hstop, habandoned, htaken, ?_, fun hover' => hends h hover'⟩
    rw [h] at hsent
    exact hsent
  | waitAgain next h =>
    refine ⟨hstop, habandoned, htaken, ?_, fun hover' => hends h hover'⟩
    rw [h] at hsent
    exact hsent
  | giveUp next h hstop' =>
    rw [hstop] at hstop'
    cases hstop'
  | close h =>
    refine ⟨hstop, habandoned, htaken, ?_, fun _ => hends h trivial⟩
    rw [h, hnone h id] at hsent
    rw [hnone h id]
    simpa [Reader.unsent, Reader.mark, AfterPut.mark, ← List.append_assoc] using hsent
  | closeRaises h =>
    refine ⟨hstop, habandoned, htaken, ?_, fun _ => hends h trivial⟩
    rw [h] at hsent
    exact hsent

/-- The invariant is kept by the thread. -/
theorem ReaderStep.inv {act : ReaderAct} (h : ReaderStep s act s') (hs : s.Inv) : s'.Inv := by
  obtain ⟨hqueue, hstop, hloop, hconsumer, hyielded⟩ := h.frame
  constructor
  · intro hactive hopen
    rw [hconsumer] at hactive
    rw [hloop] at hopen
    exact h.flow hs.idle hs.past hopen (hs.flow hactive hopen)
  · exact h.idle hs.idle
  · intro hne
    rcases h.ending with hsame | hover
    · exact (h.past (hs.past (hsame ▸ hne))).2.2
    · exact hover
  · rw [hyielded]
    exact hs.yielded.trans h.read_prefix
  · rw [hconsumer]
    intro o ho
    refine (hs.told o ho).congr hyielded fun hne => ?_
    obtain ⟨hending, hread, -⟩ := h.past (hs.past hne)
    exact ⟨hending, hread⟩

/-! ## Steps of the event loop -/

/-- What the event loop does not touch. -/
theorem LoopStep.frame {act : LoopAct} (h : LoopStep s act s') :
    s'.reader = s.reader ∧ s'.stop = s.stop ∧ s'.consumer = s.consumer ∧ s'.read = s.read ∧
      s'.ending = s.ending ∧ s'.yielded = s.yielded ∧ s'.opened = s.opened := by
  cases h <;> exact ⟨rfl, rfl, rfl, rfl, rfl, rfl, rfl⟩

/-- While it is open it loses nothing. -/
theorem LoopStep.flow {act : LoopAct} (h : LoopStep s act s') (hloop : s'.loopOpen = true)
    (hflow : s.Flow) : s'.Flow := by
  obtain ⟨hstop, habandoned, htaken, hsent, hending⟩ := hflow
  cases h with
  | put item _ hpending =>
    refine ⟨hstop, habandoned, htaken, ?_, hending⟩
    rw [hpending] at hsent
    simpa using hsent
  | putLate item before after _ hlate =>
    rw [habandoned] at hlate
    exact absurd hlate.symm (by simp)
  | cancelled item before after _ hlate =>
    rw [habandoned] at hlate
    exact absurd hlate.symm (by simp)
  | close => cases hloop

theorem LoopStep.pending {act : LoopAct} (h : LoopStep s act s') (hnone : s.pending = none) :
    s'.pending = none := by
  cases h with
  | put => rfl
  | _ => exact hnone

theorem LoopStep.loopOpen {act : LoopAct} (h : LoopStep s act s') (hloop : s'.loopOpen = true) :
    s.loopOpen = true := by
  cases h with
  | close => cases hloop
  | _ => exact hloop

theorem LoopStep.inv {act : LoopAct} (h : LoopStep s act s') (hs : s.Inv) : s'.Inv := by
  obtain ⟨hreader, hstop, hconsumer, hread, hending, hyielded, -⟩ := h.frame
  constructor
  · intro hactive hopen
    rw [hconsumer] at hactive
    exact h.flow hopen (hs.flow hactive (h.loopOpen hopen))
  · intro hnot
    rw [hreader] at hnot
    exact h.pending (hs.idle hnot)
  · rw [hending, hreader]
    exact hs.past
  · rw [hyielded, hread]
    exact hs.yielded
  · rw [hconsumer]
    intro o ho
    exact (hs.told o ho).congr hyielded fun _ => ⟨hending, hread⟩

/-! ## Steps of the coroutine -/

/-- What the coroutine does not touch. -/
theorem ConsumerStep.frame {act : ConsumerAct} (h : ConsumerStep s act s') :
    s'.reader = s.reader ∧ s'.pending = s.pending ∧ s'.abandoned = s.abandoned ∧
      s'.loopOpen = s.loopOpen ∧ s'.read = s.read ∧ s'.ending = s.ending ∧
      s'.queue.accepted = s.queue.accepted := by
  cases h <;> exact ⟨rfl, rfl, rfl, rfl, rfl, rfl, rfl⟩

/-- A step in the loop leaves the coroutine in it only if it has yielded what it took. -/
theorem ConsumerStep.flow {act : ConsumerAct} (h : ConsumerStep s act s')
    (hactive : s'.consumer.Active) (hflow : s.consumer.Active → s.Flow) : s'.Flow := by
  have hat : ∀ {c}, s.consumer = c → c.Active → s.Flow := fun hc hc' => hflow (hc ▸ hc')
  cases h with
  | getChunk bytes rest _ h =>
    obtain ⟨hstop, habandoned, htaken, hsent, hending⟩ := hat h trivial
    exact ⟨hstop, habandoned, by simp [htaken], hsent, hending⟩
  | resume _ h =>
    obtain ⟨hstop, habandoned, htaken, hsent, hending⟩ := hat h trivial
    exact ⟨hstop, habandoned, htaken, hsent, hending⟩
  | _ => exact hactive.elim

/-- And it leaves the loop on what it took. -/
theorem ConsumerStep.told {act : ConsumerAct} (h : ConsumerStep s act s')
    (hflow : s.consumer.Active → s.Flow) (htold : ∀ o ∈ s.consumer.outcome, s.Told o) :
    ∀ o ∈ s'.consumer.outcome, s'.Told o := by
  have hsame : ∀ {o}, s.Told o → s'.yielded = s.yielded → s'.Told o := fun ho hyielded =>
    ho.congr hyielded fun _ => ⟨h.frame.2.2.2.2.2.1, h.frame.2.2.2.2.1⟩
  have hin : ∀ {c}, s.consumer = c → c.Active → s.Flow := fun hc hc' => hflow (hc ▸ hc')
  have hleft : ∀ {c o}, s.consumer = c → c.outcome = some o → s.Told o :=
    fun hc ho => htold _ (by rw [hc]; exact ho)
  intro o ho
  cases h with
  | getChunk => cases ho
  | getError e rest _ h hitems =>
    cases ho
    exact hsame ((hin h trivial).error hitems) rfl
  | getDone rest _ h hitems =>
    cases ho
    exact hsame ((hin h trivial).done hitems) rfl
  | resume => cases ho
  | stop => cases ho; trivial
  | setStop _ _ h => cases ho; exact hsame (hleft h rfl) rfl
  | close _ _ h => cases ho; exact hsame (hleft h rfl) rfl
  | closeRaises => cases ho; trivial
  | join _ _ h => cases ho; exact hsame (hleft h rfl) rfl
  | interrupt => cases ho; trivial

/-- What is yielded has been read next. -/
theorem ConsumerStep.yielded {act : ConsumerAct} (h : ConsumerStep s act s')
    (hflow : s.consumer.Active → s.Flow) (hyielded : s.yielded <+: s.read) :
    s'.yielded <+: s'.read := by
  cases h with
  | getChunk bytes rest _ h hitems => exact (hflow (by rw [h]; trivial)).chunk hitems
  | _ => exact hyielded

theorem ConsumerStep.open {act : ConsumerAct} (h : ConsumerStep s act s') : s.loopOpen = true := by
  cases h <;> assumption

theorem ConsumerStep.inv {act : ConsumerAct} (h : ConsumerStep s act s') (hs : s.Inv) : s'.Inv := by
  obtain ⟨hreader, hpending, -, -, -, hending, -⟩ := h.frame
  have hflow : s.consumer.Active → s.Flow := fun hactive => hs.flow hactive h.open
  constructor
  · intro hactive _
    exact h.flow hactive hflow
  · rw [hreader, hpending]
    exact hs.idle
  · rw [hreader, hending]
    exact hs.past
  · exact h.yielded hflow hs.yielded
  · exact h.told hflow hs.told

/-! ## Runs -/

theorem Step.inv {l : StreamLabel} (h : Step s l s') (hs : s.Inv) : s'.Inv := by
  cases h with
  | reader h => exact h.inv hs
  | loop h => exact h.inv hs
  | consumer h => exact h.inv hs

theorem inv_start : start.Inv where
  flow _ _ := ⟨rfl, rfl, rfl, rfl, False.elim⟩
  idle _ := rfl
  past h := absurd rfl h
  yielded := List.prefix_rfl
  told _ h := by cases h

/-- **The invariant holds in every state of every run.** -/
theorem inv_of_path {ls : List StreamLabel} (h : Path Step start ls s) : s.Inv :=
  h.invariant (fun _ => True) (fun _ _ => trivial) (fun h _ => h.inv) inv_start

end Streaming

end TradeStation
