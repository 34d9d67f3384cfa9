import TradeStation.Auth.FileTokenStore
import TradeStation.Auth.Rotation

/-!
# The token file is whole

Tokens reach the token file by `os.replace` alone, so that a reader finds all the bytes of a token or
none, wherever writers crash, whatever raises, and whether or not the lock excludes.

* `StageSound` is what a call knows of the tokens it carries and of its temporary file;
  `Works.sound`: the calls on the file keep it, and leave a whole token in the file.
* `tokenFile_whole`: in every state of every run the file holds the encoding of one token, which was
  there in the beginning or was given to an operation of the run, and so does what `load` returns.
-/

namespace TradeStation.FileTokenStore

open Python Foundations TokenFileLock

/-- The token was in the file in the beginning, or is one that an operation of a log writes. -/
def Offered {P : Type} (stored : MemoryTokenStore.Stored) (ls : List (Label P))
    (token : OAuthToken) : Prop :=
  stored = some token ∨ ∃ p op, .calls p op ∈ ls ∧ op.written = some token

/-- What a file may hold behind a log: such a token, and none only if there was none. -/
def Origin {P : Type} (stored : MemoryTokenStore.Stored) (ls : List (Label P)) :
    MemoryTokenStore.Stored → Prop
  | none => stored = none
  | some token => Offered stored ls token

section
variable {P : Type} {codec : TokenCodec} {Known : MemoryTokenStore.Stored → Prop} {x : Place}
  {v v' : View} {temp : Option (List UInt8)} {stage stage' : Stage} {op : TokenOp} {act : Act}

/-- The file holds a known token, whole. -/
def FileSound (codec : TokenCodec) (Known : MemoryTokenStore.Stored → Prop)
    (file : Option (List UInt8)) : Prop :=
  ∃ held, codec.Holds file held ∧ Known held

/-- An answer that shows what the store holds shows a known token. -/
def KnownAnswer (Known : MemoryTokenStore.Stored → Prop) : (op : TokenOp) → op.Answer → Prop
  | .load, held => Known held
  | _, _ => True

/-- The tokens of a call are known, and its temporary file with what is still to be written is the
encoding of its token. -/
def StageSound (codec : TokenCodec) (Known : MemoryTokenStore.Stored → Prop)
    (temp : Option (List UInt8)) : Stage → Prop
  | .idle | .cleaning _ => True
  | .locking op | .checking op | .reading op =>
    ∀ token, op.written = some token → Known (some token)
  | .creating _ token => Known (some token)
  | .writing _ token rest =>
    Known (some token) ∧ ∀ bytes, temp = some bytes → codec.encode token (bytes ++ rest)
  | .replacing _ token =>
    Known (some token) ∧ ∀ bytes, temp = some bytes → codec.encode token bytes
  | .leaving op outcome | .returning op outcome => ∀ x, outcome = some x → KnownAnswer Known op x

theorem sound_begun (h : ∀ token, op.written = some token → Known (some token)) :
    StageSound codec Known temp (begun op) := by
  cases op <;> exact h

theorem sound_entered (h : ∀ token, op.written = some token → Known (some token)) :
    StageSound codec Known temp (entered op) := by
  cases op with
  | save token => exact h token rfl
  | _ => exact h

theorem sound_raised : StageSound codec Known temp (raised op) := by
  cases op <;> rintro _ ⟨⟩

theorem sound_saved : StageSound codec Known temp (saved op) := by
  cases op with
  | save | compareAndSwapRefreshToken =>
    rintro _ ⟨⟩
    trivial
  | _ => rintro _ ⟨⟩

theorem sound_loaded {held : MemoryTokenStore.Stored} (hheld : Known held)
    (h : ∀ token, op.written = some token → Known (some token)) :
    StageSound codec Known temp (loaded held op) := by
  cases op with
  | load =>
    rintro _ ⟨⟩
    exact hheld
  | compareAndSwapRefreshToken expected replacement =>
    simp only [loaded]
    split_ifs
    · rintro _ ⟨⟩
      trivial
    · exact h replacement rfl
  | _ => rintro _ ⟨⟩

/-- **A call on the file leaves a whole token in it.** -/
theorem Works.sound (hcodec : codec.Faithful) (h : Works codec x v v')
    (hfile : FileSound codec Known v.file) (hstage : StageSound codec Known v.temp v.stage) :
    FileSound codec Known v'.file ∧ StageSound codec Known v'.temp v'.stage := by
  cases h with
  | absent op temp hrun =>
    obtain ⟨held, hheld, hknown⟩ := hfile
    cases held with
    | none => exact ⟨⟨none, hheld, hknown⟩, sound_loaded hknown hstage⟩
    | some token => exact hheld.elim
  | present => exact ⟨hfile, hstage⟩
  | read op bytes temp token hrun hdecode =>
    obtain ⟨held, hheld, hknown⟩ := hfile
    cases held with
    | none => exact hheld.elim
    | some token' =>
      rw [hcodec token' bytes hheld] at hdecode
      obtain rfl : token' = token := Option.some.inj hdecode
      exact ⟨⟨some token', hheld, hknown⟩, sound_loaded hknown hstage⟩
  | garbled | raises | discard => exact ⟨hfile, sound_raised⟩
  | create op token file temp encoded hrun hencode =>
    refine ⟨hfile, hstage, ?_⟩
    rintro bytes ⟨⟩
    exact hencode
  | write op token file bytes piece rest hrun =>
    obtain ⟨hknown, hbytes⟩ := hstage
    refine ⟨hfile, hknown, ?_⟩
    rintro _ ⟨⟩
    rw [List.append_assoc]
    exact hbytes bytes rfl
  | close op token file temp hrun =>
    obtain ⟨hknown, hbytes⟩ := hstage
    refine ⟨hfile, hknown, fun bytes htemp => ?_⟩
    have hwhole := hbytes bytes htemp
    rwa [List.append_nil] at hwhole
  | replace op token file bytes hrun =>
    obtain ⟨hknown, hbytes⟩ := hstage
    exact ⟨⟨some token, hbytes bytes rfl, hknown⟩, sound_saved⟩
  | replaceRaises => exact ⟨hfile, trivial⟩

/-- So does a step in the lock. -/
theorem Turn.sound (h : Turn stage act x stage') (hstage : StageSound codec Known temp stage) :
    StageSound codec Known temp stage' := by
  cases h with
  | waits | closes | leaves | crashes => exact hstage
  | entered op => exact sound_entered hstage
  | timeout | raises | leavesRaising => rintro _ ⟨⟩

end

namespace World

variable {P : Type} [DecidableEq P] {codec : TokenCodec} {procs : Processes P}
  {Known : MemoryTokenStore.Stored → Prop} {s s' : World P} {l : Label P}

/-- The file is whole, and every call is sound. -/
structure Whole (codec : TokenCodec) (Known : MemoryTokenStore.Stored → Prop) (s : World P) :
    Prop where
  file : FileSound codec Known s.file
  stage : ∀ p, StageSound codec Known (s.temp p) (s.stage p)

theorem Whole.put {p : P} {v : View} (hs : s.Whole codec Known)
    (hfile : FileSound codec Known v.file) (hstage : StageSound codec Known v.temp v.stage) :
    (s.put p v).Whole codec Known := by
  refine ⟨hfile, fun q => ?_⟩
  by_cases hq : q = p
  · subst hq
    simpa [World.put] using hstage
  · simpa [World.put, Function.update_of_ne hq] using hs.stage q

theorem Whole.turn {p : P} {stage : Stage} (hs : s.Whole codec Known)
    (hstage : StageSound codec Known (s.temp p) stage) : (s.turn p stage).Whole codec Known := by
  refine ⟨hs.file, fun q => ?_⟩
  by_cases hq : q = p
  · subst hq
    simpa [World.turn] using hstage
  · simpa [World.turn, Function.update_of_ne hq] using hs.stage q

/-- **A step keeps the file whole**, if what it calls writes a known token. -/
theorem Step.whole (hcodec : codec.Faithful) (h : Step codec procs s l s')
    (hl : ∀ p op token, l = .calls p op → op.written = some token → Known (some token))
    (hs : s.Whole codec Known) : s'.Whole codec Known := by
  cases h with
  | tick => exact ⟨hs.file, hs.stage⟩
  | lock p act w stage h hturn =>
    have hturned : (s.turn p stage).Whole codec Known := hs.turn (hturn.sound (hs.stage p))
    exact ⟨hturned.file, hturned.stage⟩
  | work p v h =>
    obtain ⟨hfile, hstage⟩ := h.sound hcodec hs.file (hs.stage p)
    exact hs.put hfile hstage
  | calls p op hop hplace hstage => exact hs.turn (sound_begun fun token => hl p op token rfl)
  | returns | raises => exact hs.turn trivial

/-- What a call of `load` returns is known. -/
theorem Step.returned {p : P} {held : MemoryTokenStore.Stored}
    (h : Step codec procs s (.returns p .load held) s') (hs : s.Whole codec Known) :
    Known held := by
  cases h with
  | returns _ _ _ hplace hstage =>
    have hsound := hs.stage p
    rw [hstage] at hsound
    exact hsound held rfl

variable {stored : MemoryTokenStore.Stored} {start : World P} {ls ls' : List (Label P)}

theorem whole_of_path (hcodec : codec.Faithful) (hstart : start.Initial codec stored)
    (hrun : Path (Step codec procs) start ls s) : s.Whole codec (Origin stored ls) := by
  refine hrun.invariant (I := fun s => s.Whole codec (Origin stored ls)) (· ∈ ls)
    (fun _ hl => hl) (fun hstep hl hs => hstep.whole hcodec ?_ hs) ?_
  · rintro p op token rfl hwritten
    exact .inr ⟨p, op, hl, hwritten⟩
  · refine ⟨⟨stored, hstart.file, ?_⟩, fun p => ?_⟩
    · cases stored with
      | none => rfl
      | some token => exact .inl rfl
    · rw [hstart.stage p]
      trivial

end World

/-- **The token file is whole.** In every state of every run, wherever callers crash and whatever
raises, the file holds the encoding of one token, and every `load` has returned one: a token that was
there in the beginning or that an operation called before was given. No token is gone once there was
one. -/
theorem tokenFile_whole {P : Type} [DecidableEq P] {codec : TokenCodec} {procs : Processes P}
    {stored : MemoryTokenStore.Stored} {start s : World P} {ls : List (Label P)}
    (hcodec : codec.Faithful) (hstart : start.Initial codec stored)
    (hrun : Path (World.Step codec procs) start ls s) :
    (∃ held, codec.Holds s.file held ∧ Origin stored ls held) ∧
      ∀ before p held after, ls = before ++ .returns p .load held :: after →
        Origin stored before held := by
  refine ⟨(World.whole_of_path hcodec hstart hrun).file, ?_⟩
  rintro before p held after rfl
  obtain ⟨mid, hbefore, hrest⟩ := path_append.1 hrun
  obtain ⟨mid', hstep, -⟩ := path_cons.1 hrest
  exact hstep.returned (World.whole_of_path hcodec hstart hbefore)

/-- What `PlainTextTokenCodec` makes of the first token. -/
def oldText : List UInt8 :=
  ("\x7b\"access_token\":\"a\",\"refresh_token\":\"r\",\"token_type\":\"Bearer\"," ++
    "\"expires_at\":\"1970-01-01T00:00:00Z\",\"scope\":null\x7d").toList.map fun c => c.toNat.toUInt8

/-- And of the second. -/
def newText : List UInt8 :=
  ("\x7b\"access_token\":\"b\",\"refresh_token\":\"r\",\"token_type\":\"Bearer\"," ++
    "\"expires_at\":\"1970-01-01T00:20:00Z\",\"scope\":null\x7d").toList.map fun c => c.toNat.toUInt8

/-- And of the one that was rotated. -/
def rotatedText : List UInt8 :=
  ("\x7b\"access_token\":\"c\",\"refresh_token\":\"s\",\"token_type\":\"Bearer\"," ++
    "\"expires_at\":\"1970-01-01T00:20:00Z\",\"scope\":null\x7d").toList.map fun c => c.toNat.toUInt8

/-- The tokens with their texts. -/
def plainTexts : List (OAuthToken × List UInt8) :=
  [(oldToken, oldText), (newToken, newText), (rotatedToken, rotatedText)]

/-- `PlainTextTokenCodec` on these. -/
def plainTextCodec : TokenCodec where
  encode token bytes := (token, bytes) ∈ plainTexts
  decode bytes := (plainTexts.find? fun text => text.2 = bytes).map Prod.fst

theorem plainTextCodec_faithful : plainTextCodec.Faithful := by
  have hnew : oldText ≠ newText := by decide +kernel
  have hold : oldText ≠ rotatedText := by decide +kernel
  have hrotated : newText ≠ rotatedText := by decide +kernel
  intro token bytes h
  simp only [plainTextCodec, plainTexts, List.mem_cons, List.not_mem_nil, or_false, Prod.mk.injEq] at h
  rcases h with ⟨rfl, rfl⟩ | ⟨rfl, rfl⟩ | ⟨rfl, rfl⟩
  · simp [plainTextCodec, plainTexts]
  · simp [plainTextCodec, plainTexts, hnew]
  · simp [plainTextCodec, plainTexts, hold, hrotated]

/-- One caller. -/
def oneCaller : Processes Unit where
  pid _ := 101
  pid_pos _ := by decide

/-- Two callers. -/
def twoCallers : Processes Bool where
  pid caller := if caller then 102 else 101
  pid_pos caller := by cases caller <;> decide

/-- Nobody has called, and the file holds the first token. -/
def storedOnce {P : Type} : World P where
  lock := ⟨0, none, fun _ => .outside⟩
  file := some oldText
  temp _ := none
  stage _ := .idle

theorem storedOnce_initial {P : Type} : (storedOnce : World P).Initial plainTextCodec (some oldToken) where
  lock := ⟨fun _ => rfl, by rintro f ⟨⟩⟩
  file := List.mem_cons_self
  stage _ := rfl

/-- It is loaded. -/
theorem tokenFile_whole_loaded : ∃ ls : List (Label Unit), ∃ s : World Unit,
    (∃ held, plainTextCodec.Holds s.file held ∧ Origin (some oldToken) ls held) ∧
      ∀ before p held after, ls = before ++ .returns p .load held :: after →
        Origin (some oldToken) before held := by
  have hrun : ∃ s, Path (World.Step plainTextCodec oneCaller) storedOnce
      [.calls () .load, .work (), .work (), .returns () .load (some oldToken)] s :=
    ⟨_,
      .cons (.calls _ () .load trivial rfl rfl) <|
      .cons (.work _ () _ (.present .load oldText none rfl)) <|
      .cons (.work _ () _ (.read .load oldText none oldToken rfl
        (plainTextCodec_faithful oldToken oldText List.mem_cons_self))) <|
      .cons (.returns _ () .load (some oldToken) rfl rfl) <| .nil _⟩
  obtain ⟨s, hrun⟩ := hrun
  exact ⟨_, s, tokenFile_whole plainTextCodec_faithful storedOnce_initial hrun⟩

end TradeStation.FileTokenStore
