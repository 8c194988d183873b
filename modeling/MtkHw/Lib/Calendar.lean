import Mathlib.Logic.Function.Iterate
import Mathlib.Tactic.Common

/-!
# The Gregorian calendar

Dates and times are given by what the next day and the next second are.  A number of days
or of seconds is added by going on from day to day, or from second to second.  The lemmas
take the two apart: seconds into days and the time of the day, and days into years and
the day of the year.
-/

namespace MtkHw.Lib.Calendar

/-! ## Dates -/

/-- Each fourth year is a leap year; of the centuries, each fourth one. -/
def isLeap (year : Nat) : Bool := year % 4 = 0 ∧ (year % 100 = 0 → year % 400 = 0)

/-- The days of a month. -/
def daysInMonth (leap : Bool) : Nat → Nat
  | 2 => if leap then 29 else 28
  | 4 | 6 | 9 | 11 => 30
  | _ => 31

def yearLength (leap : Bool) : Nat := if leap then 366 else 365

/-- A date; months and days count from one. -/
@[ext]
structure Date where
  year : Nat
  month : Nat
  day : Nat
deriving DecidableEq, Repr

/-- The next day. -/
def Date.next (d : Date) : Date :=
  if d.day < daysInMonth (isLeap d.year) d.month then ⟨d.year, d.month, d.day + 1⟩
  else if d.month < 12 then ⟨d.year, d.month + 1, 1⟩
  else ⟨d.year + 1, 1, 1⟩

/-- The days of a year: its months and days in order. -/
structure IsYear (leap : Bool) (table : Nat → Nat × Nat) : Prop where
  first : table 0 = (1, 1)
  step : ∀ r, r + 1 < yearLength leap → ∀ year, isLeap year = leap →
    Date.next ⟨year, (table r).1, (table r).2⟩ = ⟨year, (table (r + 1)).1, (table (r + 1)).2⟩
  last : ∀ year, isLeap year = leap →
    Date.next ⟨year, (table (yearLength leap - 1)).1, (table (yearLength leap - 1)).2⟩ =
      ⟨year + 1, 1, 1⟩

section Year

variable {leap : Bool} {table : Nat → Nat × Nat} {year : Nat}

theorem yearLength_pos (leap : Bool) : 0 < yearLength leap := by
  cases leap <;> decide

/-- A day of the year is reached from the first one. -/
theorem IsYear.iterate_next (h : IsYear leap table) (hyear : isLeap year = leap) {r : Nat}
    (hr : r < yearLength leap) :
    Date.next^[r] ⟨year, 1, 1⟩ = ⟨year, (table r).1, (table r).2⟩ := by
  induction r with
  | zero => rw [h.first, Function.iterate_zero, id_eq]
  | succ r ih =>
    rw [Function.iterate_succ_apply', ih (Nat.lt_of_succ_lt hr)]
    exact h.step r hr year hyear

/-- A year later it is the first day of the next year. -/
theorem IsYear.iterate_next_year (h : IsYear leap table) (hyear : isLeap year = leap) :
    Date.next^[yearLength leap] ⟨year, 1, 1⟩ = ⟨year + 1, 1, 1⟩ := by
  obtain ⟨n, hn⟩ := Nat.exists_eq_succ_of_ne_zero (Nat.ne_of_gt (yearLength_pos leap))
  have hlast := h.last year hyear
  rw [hn, Nat.succ_sub_one] at hlast
  rw [hn, Function.iterate_succ_apply', h.iterate_next hyear (by rw [hn]; exact n.lt_succ_self)]
  exact hlast

end Year

/-- The days of `n` years from a year on. -/
def daysOfYears (year n : Nat) : Nat :=
  match n with
  | 0 => 0
  | n + 1 => daysOfYears year n + yearLength (isLeap (year + n))

/-- The first year can be counted first. -/
theorem daysOfYears_succ' (year n : Nat) :
    daysOfYears year (n + 1) = yearLength (isLeap year) + daysOfYears (year + 1) n := by
  induction n with
  | zero => rw [daysOfYears, daysOfYears, daysOfYears, Nat.add_zero, Nat.zero_add, Nat.add_zero]
  | succ n ih =>
    rw [daysOfYears, ih, daysOfYears, Nat.add_assoc, Nat.add_assoc year 1 n, Nat.add_comm 1 n]

/-- The days of some years lead to the first day of the year behind them. -/
theorem iterate_next_daysOfYears {table : Bool → Nat → Nat × Nat}
    (h : ∀ leap, IsYear leap (table leap)) (year n : Nat) :
    Date.next^[daysOfYears year n] ⟨year, 1, 1⟩ = ⟨year + n, 1, 1⟩ := by
  induction n with
  | zero => rfl
  | succ n ih =>
    rw [daysOfYears, Nat.add_comm, Function.iterate_add_apply, ih,
      (h (isLeap (year + n))).iterate_next_year rfl]
    rfl

/-! ## Times -/

/-- A time of a day. -/
@[ext]
structure Clock where
  hour : Nat
  minute : Nat
  second : Nat
deriving DecidableEq, Repr

/-- A date with a time. -/
structure DateTime where
  date : Date
  clock : Clock
deriving DecidableEq, Repr

/-- The next second. -/
def DateTime.tick (d : DateTime) : DateTime :=
  if d.clock.second < 59 then ⟨d.date, d.clock.hour, d.clock.minute, d.clock.second + 1⟩
  else if d.clock.minute < 59 then ⟨d.date, d.clock.hour, d.clock.minute + 1, 0⟩
  else if d.clock.hour < 23 then ⟨d.date, d.clock.hour + 1, 0, 0⟩
  else ⟨d.date.next, 0, 0, 0⟩

/-- The time of some seconds into the day. -/
def Clock.ofSeconds (s : Nat) : Clock := ⟨s / 3600, s % 3600 / 60, s % 60⟩

theorem tick_ofSeconds (date : Date) {s : Nat} (h : s + 1 < 86400) :
    DateTime.tick ⟨date, .ofSeconds s⟩ = ⟨date, .ofSeconds (s + 1)⟩ := by
  unfold DateTime.tick Clock.ofSeconds
  dsimp only
  split_ifs with hsecond hminute hhour
  · congr 2 <;> omega
  · congr 2 <;> omega
  · congr 2 <;> omega
  · omega

theorem tick_midnight (date : Date) :
    DateTime.tick ⟨date, .ofSeconds 86399⟩ = ⟨date.next, .ofSeconds 0⟩ := rfl

/-- Seconds from midnight on are whole days and the time of the day. -/
theorem iterate_tick (date : Date) (n : Nat) :
    DateTime.tick^[n] ⟨date, .ofSeconds 0⟩ =
      ⟨Date.next^[n / 86400] date, .ofSeconds (n % 86400)⟩ := by
  induction n with
  | zero => rfl
  | succ n ih =>
    rw [Function.iterate_succ_apply', ih]
    by_cases hday : n % 86400 + 1 < 86400
    · rw [tick_ofSeconds _ hday, show (n + 1) / 86400 = n / 86400 by omega,
        show (n + 1) % 86400 = n % 86400 + 1 by omega]
    · rw [show n % 86400 = 86399 by omega, tick_midnight,
        show (n + 1) / 86400 = n / 86400 + 1 by omega, Function.iterate_succ_apply',
        show (n + 1) % 86400 = 0 by omega]

end MtkHw.Lib.Calendar
