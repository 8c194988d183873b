import MtkHw.Lib.Calendar

/-!
# From GPS time to the calendar

GPS time counts weeks and seconds since 6 January 1980.  `GpsToUtcTime` takes years off
the days since 1 January 1980, finds the month in a table of the days before each month,
and gives the parts to `mktime`.

The time of week is an integer, and the sums are below `2 ^ 31`, so that the arithmetic
is that of natural numbers.
-/

namespace MtkHw.Gps

open MtkHw.Lib.Calendar

/-- What is given to `mktime`. -/
structure Tm where
  tm_year : Int
  tm_mon : Int
  tm_mday : Int
  tm_hour : Int
  tm_min : Int
  tm_sec : Int
  tm_isdst : Int
deriving DecidableEq, Repr

/-- Take off years from 1980 on, as long as the days fill them. -/
def takeYears (iDaysElapsed iYearsElapsed : Nat) : Nat × Nat :=
  if 365 ≤ iDaysElapsed then
    if iYearsElapsed % 100 = 20 then
      if iYearsElapsed % 400 = 20 then
        if 366 ≤ iDaysElapsed then takeYears (iDaysElapsed - 366) (iYearsElapsed + 1)
        else (iDaysElapsed, iYearsElapsed)
      else takeYears (iDaysElapsed - 365) (iYearsElapsed + 1)
    else if iYearsElapsed % 4 = 0 then
      if 366 ≤ iDaysElapsed then takeYears (iDaysElapsed - 366) (iYearsElapsed + 1)
      else (iDaysElapsed, iYearsElapsed)
    else takeYears (iDaysElapsed - 365) (iYearsElapsed + 1)
  else (iDaysElapsed, iYearsElapsed)
termination_by iDaysElapsed
decreasing_by all_goals omega

/-- The leap years of the table. -/
def fgLeapYear (iYearsElapsed : Nat) : Bool :=
  if iYearsElapsed % 100 = 20 then iYearsElapsed % 400 = 20 else iYearsElapsed % 4 = 0

/-- The days before each month, without a leap day and with it. -/
def doy (leap : Bool) : List Nat :=
  let table := [0, 31, 59, 90, 120, 151, 181, 212, 243, 273, 304, 334]
  if leap then table.mapIdx fun i days => if 2 ≤ i then days + 1 else days else table

/-- The month, and the day of it. -/
def monthDay (leap : Bool) (iDaysElapsed : Nat) : Nat × Nat :=
  let i := ((List.range 12).find? fun i => iDaysElapsed < (doy leap).getD i 0).getD 12
  (i, if 0 < i then iDaysElapsed - (doy leap).getD (i - 1) 0 + 1 else 0)

def gpsToUtcTime (i2Wn dfTow : Nat) : Tm :=
  let iDaysElapsed := i2Wn * 7 + dfTow / 86400 + 5
  let dfSecElapsed := dfTow - dfTow / 86400 * 86400
  let (iDaysElapsed, iYearsElapsed) := takeYears iDaysElapsed 0
  let pi2Yr := 1980 + iYearsElapsed
  let (pi2Mo, pi2Day) := monthDay (fgLeapYear iYearsElapsed) iDaysElapsed
  let pi2Hr := dfSecElapsed / 3600
  let pi2Min := dfSecElapsed % 3600 / 60
  let pdfSec := dfSecElapsed - dfSecElapsed / 60 * 60
  { tm_year := (pi2Yr : Int) - 1900
    tm_mon := (pi2Mo : Int) - 1
    tm_mday := pi2Day
    tm_hour := pi2Hr
    tm_min := pi2Min
    tm_sec := pdfSec
    tm_isdst := -1 }

/-! ## The years -/

theorem fgLeapYear_eq (iYearsElapsed : Nat) :
    fgLeapYear iYearsElapsed = isLeap (1980 + iYearsElapsed) := by
  unfold fgLeapYear isLeap
  split_ifs with hcentury
  · rw [decide_eq_decide]
    omega
  · rw [decide_eq_decide]
    omega

/-- One turn of the loop: a year that the days fill is taken off. -/
theorem takeYears_eq (days years : Nat) :
    takeYears days years =
      if yearLength (isLeap (1980 + years)) ≤ days then
        takeYears (days - yearLength (isLeap (1980 + years))) (years + 1)
      else (days, years) := by
  have hsplit : ∀ x y : Nat × Nat,
      (if 365 ≤ days then if 366 ≤ days then x else y else y) = if 366 ≤ days then x else y := by
    intro x y
    split_ifs with h365 h366 h366
    · rfl
    · rfl
    · exact absurd (Nat.le_of_succ_le h366) h365
    · rfl
  rw [← fgLeapYear_eq, takeYears]
  by_cases hcentury : years % 100 = 20
  · by_cases hfourth : years % 400 = 20
    · simp only [fgLeapYear, yearLength, hcentury, hfourth, if_true, decide_true, hsplit]
    · simp only [fgLeapYear, yearLength, hcentury, hfourth, if_true, if_false, decide_false,
        Bool.false_eq_true]
  · by_cases hfourth : years % 4 = 0
    · simp only [fgLeapYear, yearLength, hcentury, hfourth, if_true, if_false, decide_true,
        hsplit]
    · simp only [fgLeapYear, yearLength, hcentury, hfourth, if_false, decide_false,
        Bool.false_eq_true]

/-- The loop ends with a day of a year, and has taken off the years before it. -/
theorem takeYears_spec (days years : Nat) :
    ∃ n r, takeYears days years = (r, years + n) ∧
      days = daysOfYears (1980 + years) n + r ∧
        r < yearLength (isLeap (1980 + years + n)) := by
  induction days using Nat.strongRecOn generalizing years with
  | _ days ih =>
  rw [takeYears_eq]
  split_ifs with hfull
  · have hpos := yearLength_pos (isLeap (1980 + years))
    have hless := Nat.sub_lt (Nat.lt_of_lt_of_le hpos hfull) hpos
    obtain ⟨n, r, heq, hdays, hr⟩ := ih _ hless (years + 1)
    refine ⟨n + 1, r, ?_, ?_, ?_⟩
    · rw [heq, Nat.add_assoc, Nat.add_comm 1 n]
    · rw [daysOfYears_succ', ← Nat.sub_add_cancel hfull, hdays, ← Nat.add_assoc 1980]
      omega
    · rwa [show 1980 + years + (n + 1) = 1980 + (years + 1) + n by omega]
  · exact ⟨0, days, rfl, (Nat.zero_add days).symm, Nat.lt_of_not_le hfull⟩

/-! ## The months -/

/-- A step in the table, whatever the year. -/
theorem monthDay_step : ∀ leap, ∀ r < yearLength leap - 1,
    (if (monthDay leap r).2 < daysInMonth leap (monthDay leap r).1 then
      monthDay leap (r + 1) = ((monthDay leap r).1, (monthDay leap r).2 + 1)
    else (monthDay leap r).1 < 12 ∧ monthDay leap (r + 1) = ((monthDay leap r).1 + 1, 1)) := by
  decide +kernel

/-- The table gives the days of a year in order. -/
theorem isYear_monthDay (leap : Bool) : IsYear leap (monthDay leap) where
  first := by cases leap <;> rfl
  step r hr year hyear := by
    have hstep := monthDay_step leap r (Nat.lt_sub_of_add_lt hr)
    unfold Date.next
    dsimp only
    rw [hyear]
    split_ifs at hstep ⊢ with hday hmonth
    · rw [hstep]
    · rw [hstep.2]
    · exact absurd hstep.1 hmonth
  last year hyear := by
    unfold Date.next
    rw [hyear]
    cases leap <;> rfl

/-! ## The calendar -/

/-- The epoch of GPS time. -/
def gpsEpoch : DateTime := ⟨⟨1980, 1, 6⟩, ⟨0, 0, 0⟩⟩

/-- The parts of a date and time, as `mktime` takes them; it shall find out about summer
time itself. -/
def toTm (d : DateTime) : Tm where
  tm_year := d.date.year - 1900
  tm_mon := d.date.month - 1
  tm_mday := d.date.day
  tm_hour := d.clock.hour
  tm_min := d.clock.minute
  tm_sec := d.clock.second
  tm_isdst := -1

/-- What is given to `mktime` is the date and time that many seconds after the epoch. -/
theorem gpsToUtcTime_eq (w t : Nat) :
    gpsToUtcTime w t = toTm (DateTime.tick^[604800 * w + t] gpsEpoch) := by
  obtain ⟨n, r, htake, hdays, hr⟩ := takeYears_spec (w * 7 + t / 86400 + 5) 0
  rw [Nat.zero_add] at htake
  rw [Nat.add_zero] at hdays hr
  -- the epoch is the sixth day of its year
  have hepoch : gpsEpoch = ⟨Date.next^[5] ⟨1980, 1, 1⟩, .ofSeconds 0⟩ := rfl
  have hdate : Date.next^[(604800 * w + t) / 86400] (Date.next^[5] ⟨1980, 1, 1⟩) =
      ⟨1980 + n, (monthDay (isLeap (1980 + n)) r).1, (monthDay (isLeap (1980 + n)) r).2⟩ := by
    rw [← Function.iterate_add_apply,
      show (604800 * w + t) / 86400 + 5 = w * 7 + t / 86400 + 5 by omega, hdays, Nat.add_comm,
      Function.iterate_add_apply, iterate_next_daysOfYears isYear_monthDay,
      (isYear_monthDay _).iterate_next rfl hr]
  have hclock : (604800 * w + t) % 86400 = t - t / 86400 * 86400 := by omega
  rw [hepoch, iterate_tick, hdate, hclock]
  unfold gpsToUtcTime toTm Clock.ofSeconds
  simp only [htake, fgLeapYear_eq]
  congr 2
  omega

end MtkHw.Gps
