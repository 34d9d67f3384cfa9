import Mathlib.Tactic.IntervalCases
import TradeStation.Python.Datetime
import TradeStation.Python.FixedPoint

/-!
# Times in ISO 8601

pydantic writes a `datetime` as a text like `2030-01-02T21:00:00.250000-05:00`, with no fraction where the
second is full, `Z` for UTC, and the offset in hours and minutes: seconds of it are not written.

* `daysFromCivil_civilFromDays`: a day is numbered as its date says.
* `IsoFields.ofDatetime_valid` and `IsoFields.instant_ofDatetime`: the fields of a time are those of a date
  and a clock, and denote its instant, if its offset is in whole minutes.
* `IsoFields.read_text`: the text of such fields tells them.
-/

namespace TradeStation.Python

/-! ## The calendar -/

/-- The days from the first of January 1970 to a date. The year counts from March. -/
def daysFromCivil (year month day : ℤ) : ℤ :=
  let year := if month ≤ 2 then year - 1 else year
  let dayOfYear := (153 * ((month + 9) % 12) + 2) / 5 + day - 1
  year / 400 * 146097 + (year % 400 * 365 + year % 400 / 4 - year % 400 / 100 + dayOfYear) - 719468

/-- A date: year, month and day. -/
abbrev Civil := ℤ × ℤ × ℤ

/-- The date of a day. -/
def civilFromDays (days : ℤ) : Civil :=
  let dayOfEra := (days + 719468) % 146097
  let yearOfEra := (dayOfEra - dayOfEra / 1460 + dayOfEra / 36524 - dayOfEra / 146096) / 365
  let dayOfYear := dayOfEra - (365 * yearOfEra + yearOfEra / 4 - yearOfEra / 100)
  let monthFromMarch := (5 * dayOfYear + 2) / 153
  let month := if monthFromMarch < 10 then monthFromMarch + 3 else monthFromMarch - 9
  let year := yearOfEra + (days + 719468) / 146097 * 400
  (if month ≤ 2 then year + 1 else year, month, dayOfYear - (153 * monthFromMarch + 2) / 5 + 1)

/-- The year of an era and the day of a year are in range. -/
theorem era_bounds (dayOfEra : ℤ) {yearOfEra dayOfYear : ℤ} (h : 0 ≤ dayOfEra ∧ dayOfEra < 146097)
    (hyear : yearOfEra =
      (dayOfEra - dayOfEra / 1460 + dayOfEra / 36524 - dayOfEra / 146096) / 365)
    (hday : dayOfYear = dayOfEra - (365 * yearOfEra + yearOfEra / 4 - yearOfEra / 100)) :
    (0 ≤ yearOfEra ∧ yearOfEra < 400) ∧ 0 ≤ dayOfYear ∧ dayOfYear ≤ 365 := by
  have hrange : 0 ≤ yearOfEra ∧ yearOfEra < 400 := by omega
  refine ⟨hrange, ?_⟩
  obtain ⟨hlow, hhigh⟩ : 0 ≤ yearOfEra / 100 ∧ yearOfEra / 100 < 4 := by omega
  -- century by century, what is left is linear
  generalize hcentury : yearOfEra / 100 = century at *
  interval_cases century <;> omega

/-- The number of a day of a year that starts in March. -/
theorem daysFromCivil_march {era yearOfEra month day : ℤ} (hyear : 0 ≤ yearOfEra ∧ yearOfEra < 400)
    (hmonth : 0 ≤ month ∧ month ≤ 11) :
    daysFromCivil
        (if (if month < 10 then month + 3 else month - 9) ≤ 2 then yearOfEra + era * 400 + 1
          else yearOfEra + era * 400) (if month < 10 then month + 3 else month - 9) day =
      era * 146097 + (yearOfEra * 365 + yearOfEra / 4 - yearOfEra / 100 +
        ((153 * month + 2) / 5 + day - 1)) - 719468 := by
  have hera : (yearOfEra + era * 400) / 400 = era := by omega
  have hoffset : (yearOfEra + era * 400) % 400 = yearOfEra := by omega
  rcases lt_or_ge month 10 with hspring | hwinter
  · have hmod : (month + 3 + 9) % 12 = month := by omega
    have hafter : ¬month + 3 ≤ 2 := by omega
    rw [if_pos hspring, if_neg hafter, daysFromCivil]
    simp only [if_neg hafter, hera, hoffset, hmod]
  · have hmod : (month - 9 + 9) % 12 = month := by omega
    have hbefore : month - 9 ≤ 2 := by omega
    rw [if_neg (not_lt.2 hwinter), if_pos hbefore, daysFromCivil]
    simp only [if_pos hbefore, Int.add_sub_cancel, hera, hoffset, hmod]

/-- **A day is numbered as its date says**, and the month and the day of the month are in range. -/
theorem civilFromDays_spec (days : ℤ) : ∃ year month day, civilFromDays days = (year, month, day) ∧
    daysFromCivil year month day = days ∧ (1 ≤ month ∧ month ≤ 12) ∧ 1 ≤ day ∧ day ≤ 31 := by
  obtain ⟨hyear, hday⟩ := era_bounds ((days + 719468) % 146097) (by omega) rfl rfl
  refine ⟨_, _, _, rfl, ?_, ?_, ?_⟩
  · rw [daysFromCivil_march hyear (by omega)]
    omega
  · split_ifs <;> omega
  · omega

/-- The year of a day that `datetime` can hold. -/
theorem civilFromDays_year {days year month day : ℤ} (h : civilFromDays days = (year, month, day))
    (hrange : -719162 ≤ days ∧ days ≤ 2932896) : 1 ≤ year ∧ year ≤ 9999 := by
  obtain ⟨hyear, hday⟩ := era_bounds ((days + 719468) % 146097) (by omega) rfl rfl
  unfold civilFromDays at h
  simp only [Prod.mk.injEq] at h
  obtain ⟨h, -, -⟩ := h
  generalize hdayOfEra : (days + 719468) % 146097 = dayOfEra at hyear hday h
  generalize hyearOfEra : (dayOfEra - dayOfEra / 1460 + dayOfEra / 36524 - dayOfEra / 146096) / 365 =
    yearOfEra at hyear hday h
  clear hyearOfEra
  generalize hdayOfYear : dayOfEra - (365 * yearOfEra + yearOfEra / 4 - yearOfEra / 100) = dayOfYear
    at hday h
  split_ifs at h <;> omega

/-! ## Texts -/

/-- A number in so many digits. -/
def digits : ℕ → ℕ → PyStr
  | 0, _ => []
  | width + 1, n => digits width (n / 10) ++ [0x30 + n % 10]

theorem length_digits (width n : ℕ) : (digits width n).length = width := by
  induction width generalizing n with
  | zero => rfl
  | succ width ih => simp [digits, ih]

theorem digitsValue_digits {width n : ℕ} (h : n < 10 ^ width) :
    Decimal.digitsValue (digits width n) = n := by
  induction width generalizing n with
  | zero =>
    obtain rfl : n = 0 := by simpa using h
    rfl
  | succ width ih =>
    have hfront : Decimal.digitsValue (digits width (n / 10)) = n / 10 := ih (by omega)
    rw [Decimal.digitsValue] at hfront
    rw [digits, Decimal.digitsValue, List.foldl_append, hfront]
    simp only [List.foldl_cons, List.foldl_nil]
    omega

/-- What a text of a time says. -/
structure IsoFields where
  year : ℕ
  month : ℕ
  day : ℕ
  hour : ℕ
  minute : ℕ
  second : ℕ
  microsecond : ℕ
  /-- The offset from UTC, in seconds; `none` where there is no zone. -/
  offset : Option ℤ

namespace IsoFields

/-- The fraction of the second. -/
def fractionText (microsecond : ℕ) : PyStr :=
  if microsecond = 0 then [] else str "." ++ digits 6 microsecond

/-- The zone. -/
def offsetText : Option ℤ → PyStr
  | none => []
  | some seconds =>
    if seconds = 0 then str "Z"
    else (if seconds < 0 then str "-" else str "+") ++
      (digits 2 (seconds.natAbs / 3600) ++ (str ":" ++ digits 2 (seconds.natAbs / 60 % 60)))

/-- The text. -/
def text (f : IsoFields) : PyStr :=
  digits 4 f.year ++ (str "-" ++ (digits 2 f.month ++ (str "-" ++ (digits 2 f.day ++ (str "T" ++
    (digits 2 f.hour ++ (str ":" ++ (digits 2 f.minute ++ (str ":" ++ (digits 2 f.second ++
      (fractionText f.microsecond ++ offsetText f.offset)))))))))))

/-- The date. -/
def date (f : IsoFields) : Civil := (f.year, f.month, f.day)

/-- The day of the date. -/
def days (f : IsoFields) : ℤ := daysFromCivil f.year f.month f.day

/-- The time. -/
def datetime (f : IsoFields) : Datetime where
  wall := (f.days * 86400 + f.hour * 3600 + f.minute * 60 + f.second) * 1000000 + f.microsecond
  tzinfo := f.offset.map fun seconds => some (seconds * 1000000)

/-- A date, a time of the day, and an offset in whole minutes of less than a day. -/
structure Valid (f : IsoFields) : Prop where
  date : civilFromDays f.days = f.date
  year : 1 ≤ f.year ∧ f.year ≤ 9999
  clock : f.hour < 24 ∧ f.minute < 60 ∧ f.second < 60 ∧ f.microsecond < 1000000
  offset : ∀ seconds ∈ f.offset, seconds % 60 = 0 ∧ -86400 < seconds ∧ seconds < 86400

/-- The fields of a time. -/
def ofDatetime (t : Datetime) : IsoFields :=
  let seconds := t.wall / 1000000
  let date := civilFromDays (seconds / 86400)
  { year := date.1.toNat
    month := date.2.1.toNat
    day := date.2.2.toNat
    hour := (seconds % 86400 / 3600).toNat
    minute := (seconds % 3600 / 60).toNat
    second := (seconds % 60).toNat
    microsecond := (t.wall % 1000000).toNat
    offset := t.utcoffset.map (· / 1000000) }

end IsoFields

/-- A time that `datetime` can hold, whose offset is in whole minutes. -/
structure Datetime.WholeMinutes (t : Datetime) : Prop where
  wall : Datetime.minWall ≤ t.wall ∧ t.wall ≤ Datetime.maxWall
  offset : ∀ offset ∈ t.utcoffset,
    offset % 60000000 = 0 ∧ -86400000000 < offset ∧ offset < 86400000000

namespace IsoFields

variable {t : Datetime}

/-- The date of a time is that of its day. -/
theorem ofDatetime_date (h : t.WholeMinutes) :
    civilFromDays (t.wall / 1000000 / 86400) = (ofDatetime t).date ∧
      (ofDatetime t).days = t.wall / 1000000 / 86400 ∧
      1 ≤ (ofDatetime t).year ∧ (ofDatetime t).year ≤ 9999 := by
  obtain ⟨year, month, day, hdate, hdays, hmonth, hday⟩ :=
    civilFromDays_spec (t.wall / 1000000 / 86400)
  have hwall := h.wall
  rw [Datetime.minWall, Datetime.maxWall] at hwall
  have hrange := civilFromDays_year hdate (by omega)
  have hyear' : ((ofDatetime t).year : ℤ) = year := by
    simp only [ofDatetime, hdate]
    omega
  have hmonth' : ((ofDatetime t).month : ℤ) = month := by
    simp only [ofDatetime, hdate]
    omega
  have hday' : ((ofDatetime t).day : ℤ) = day := by
    simp only [ofDatetime, hdate]
    omega
  rw [days, date, hyear', hmonth', hday']
  exact ⟨hdate, hdays, by omega, by omega⟩

theorem ofDatetime_valid (h : t.WholeMinutes) : (ofDatetime t).Valid := by
  obtain ⟨hdate, hdays, hyear⟩ := ofDatetime_date h
  refine ⟨by rw [hdays, hdate], hyear, ?_, ?_⟩
  · simp only [ofDatetime]
    omega
  · intro seconds hseconds
    obtain ⟨offset, hoffset, rfl⟩ := Option.map_eq_some_iff.1 hseconds
    have := h.offset offset hoffset
    omega

/-- **The fields of a time denote it**: what its clock shows, and its offset. -/
theorem datetime_ofDatetime (h : t.WholeMinutes) :
    (ofDatetime t).datetime.wall = t.wall ∧ (ofDatetime t).datetime.utcoffset = t.utcoffset := by
  obtain ⟨-, hdays, -⟩ := ofDatetime_date h
  have hclock : (((ofDatetime t).hour * 3600 + (ofDatetime t).minute * 60 + (ofDatetime t).second) : ℤ) =
      t.wall / 1000000 % 86400 := by
    simp only [ofDatetime]
    omega
  have hfraction : ((ofDatetime t).microsecond : ℤ) = t.wall % 1000000 := by
    simp only [ofDatetime]
    omega
  constructor
  · rw [datetime]
    simp only [hdays, hfraction]
    omega
  · have hoffset : (ofDatetime t).offset = t.utcoffset.map (· / 1000000) := rfl
    simp only [datetime, Datetime.utcoffset, hoffset, Option.map_map]
    cases hzone : t.tzinfo.join with
    | none => rfl
    | some offset =>
      have := (h.offset offset hzone).1
      simp only [Option.map_some, Function.comp, Option.join_some]
      congr 1
      omega

theorem instant_ofDatetime (h : t.WholeMinutes) :
    (ofDatetime t).datetime.instant = t.instant ∧ (ofDatetime t).datetime.aware = t.aware := by
  obtain ⟨hwall, hoffset⟩ := datetime_ofDatetime h
  rw [Datetime.instant, Datetime.instant, Datetime.aware, Datetime.aware, hwall, hoffset]
  exact ⟨rfl, rfl⟩

/-! ## Reading a text -/

/-- A number in so many digits, and the text behind it. -/
def takeNumber (width : ℕ) (s : PyStr) : ℕ × PyStr :=
  (Decimal.digitsValue (s.take width), s.drop width)

theorem takeNumber_digits {width n : ℕ} (h : n < 10 ^ width) (s : PyStr) :
    takeNumber width (digits width n ++ s) = (n, s) := by
  have hlength := length_digits width n
  rw [takeNumber, List.take_left' hlength, List.drop_left' hlength, digitsValue_digits h]

/-- The microseconds of a fraction, and the text behind it. -/
def readFraction (s : PyStr) : ℕ × PyStr :=
  if s.head? = some 0x2e then takeNumber 6 s.tail else (0, s)

/-- The offset of a zone. -/
def readOffset : PyStr → Option ℤ
  | [] => none
  | c :: s =>
    if c = 0x5a then some 0
    else
      let (hours, s) := takeNumber 2 s
      let (minutes, _) := takeNumber 2 s.tail
      some ((if c = 0x2d then -1 else 1) * (hours * 3600 + minutes * 60))

/-- What a text says, as far as it is one of a time. -/
def read (s : PyStr) : IsoFields :=
  let (year, s) := takeNumber 4 s
  let (month, s) := takeNumber 2 s.tail
  let (day, s) := takeNumber 2 s.tail
  let (hour, s) := takeNumber 2 s.tail
  let (minute, s) := takeNumber 2 s.tail
  let (second, s) := takeNumber 2 s.tail
  let (microsecond, s) := readFraction s
  { year, month, day, hour, minute, second, microsecond, offset := readOffset s }

theorem readOffset_text {offset : Option ℤ}
    (h : ∀ seconds ∈ offset, seconds % 60 = 0 ∧ -86400 < seconds ∧ seconds < 86400) :
    readOffset (offsetText offset) = offset := by
  cases offset with
  | none => rfl
  | some seconds =>
    obtain ⟨hminutes, hlow, hhigh⟩ := h seconds rfl
    have hhours : seconds.natAbs / 3600 < 10 ^ 2 := by omega
    have hrest : seconds.natAbs / 60 % 60 < 10 ^ 2 := by omega
    have htail : ∀ c : ℕ, c ≠ 0x5a →
        readOffset (c :: (digits 2 (seconds.natAbs / 3600) ++
          (str ":" ++ digits 2 (seconds.natAbs / 60 % 60)))) =
        some ((if c = 0x2d then (-1 : ℤ) else 1) *
          ((seconds.natAbs / 3600 : ℕ) * 3600 + (seconds.natAbs / 60 % 60 : ℕ) * 60)) := by
      intro c hc
      have hbehind := takeNumber_digits hrest []
      rw [List.append_nil] at hbehind
      simp only [readOffset, if_neg hc, takeNumber_digits hhours]
      change some ((if c = 0x2d then (-1 : ℤ) else 1) *
        (_ + ((takeNumber 2 (digits 2 (seconds.natAbs / 60 % 60))).1 : ℤ) * 60)) = _
      rw [hbehind]
    unfold offsetText
    dsimp only
    split_ifs with hzero hneg
    · rw [hzero]
      rfl
    · refine (htail 0x2d (by decide)).trans ?_
      rw [if_pos rfl]
      congr 1
      omega
    · refine (htail 0x2b (by decide)).trans ?_
      rw [if_neg (by decide)]
      congr 1
      omega

theorem readFraction_text {microsecond : ℕ} (h : microsecond < 1000000) {s : PyStr}
    (hs : s.head? ≠ some 0x2e) : readFraction (fractionText microsecond ++ s) = (microsecond, s) := by
  rw [fractionText]
  split_ifs with hzero
  · rw [List.nil_append, readFraction, if_neg hs, hzero]
  · rw [readFraction, if_pos (by simp [str])]
    exact takeNumber_digits (by omega) s

theorem head_offsetText (offset : Option ℤ) : (offsetText offset).head? ≠ some 0x2e := by
  unfold offsetText
  split
  · simp
  · split_ifs <;> simp [str]

/-- **The text of such fields tells them.** -/
theorem read_text {f : IsoFields} (h : f.Valid) : read f.text = f := by
  obtain ⟨year, month, day, hdate, -, hmonth, hday⟩ := civilFromDays_spec f.days
  rw [h.date, date, Prod.mk.injEq, Prod.mk.injEq] at hdate
  have hyear := h.year
  obtain ⟨hhour, hminute, hsecond, hmicrosecond⟩ := h.clock
  have hnext : ∀ {width n : ℕ} (c : ℕ) (s : PyStr), n < 10 ^ width →
      takeNumber width ([c] ++ (digits width n ++ s)).tail = (n, s) :=
    fun _ s hn => takeNumber_digits hn s
  have hyear' : f.year < 10 ^ 4 := by omega
  have hmonth' : f.month < 10 ^ 2 := by omega
  have hday' : f.day < 10 ^ 2 := by omega
  have hhour' : f.hour < 10 ^ 2 := by omega
  have hminute' : f.minute < 10 ^ 2 := by omega
  have hsecond' : f.second < 10 ^ 2 := by omega
  simp only [read, text, show str "-" = [0x2d] from rfl, show str "T" = [0x54] from rfl,
    show str ":" = [0x3a] from rfl, takeNumber_digits hyear', hnext _ _ hmonth', hnext _ _ hday',
    hnext _ _ hhour', hnext _ _ hminute', hnext _ _ hsecond',
    readFraction_text hmicrosecond (head_offsetText f.offset), readOffset_text h.offset]

end IsoFields

end TradeStation.Python
