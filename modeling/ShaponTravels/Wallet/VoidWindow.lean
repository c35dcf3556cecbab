import Mathlib.Tactic.Common
import Mathlib.Algebra.Order.Group.Int

/-!
# VoidWindow — until when a ticket can be voided

`void_open` of `wallet/ticket_management/rules.rs`, over `DateTime<Utc>` as chrono keeps it.
-/

namespace ShaponTravels.Wallet.TicketManagement

/-! ## Instants -/

/-- The day of `NaiveDate::MIN`, 1 January of the year -262143, counted from 1 January 1970. -/
def firstDay : Int := -96465292

/-- The day of `NaiveDate::MAX`, 31 December of the year 262142. -/
def lastDay : Int := 95026236

/-- `DateTime<Utc>`: a date as its day number, the second of that day, and nanoseconds, which are
10⁹ and more within a leap second. -/
structure Instant where
  day : Int
  second : Int
  nanos : Int
  day_range : firstDay ≤ day ∧ day ≤ lastDay
  second_range : 0 ≤ second ∧ second < 86400
  nanos_range : 0 ≤ nanos ∧ nanos < 2000000000

namespace Instant

/-- `<` of `DateTime<Utc>`: the date, then the time of day. -/
def Before (t u : Instant) : Prop :=
  t.day < u.day ∨ t.day = u.day ∧ (t.second < u.second ∨ t.second = u.second ∧ t.nanos < u.nanos)

instance (t u : Instant) : Decidable (t.Before u) := by
  unfold Before
  infer_instance

/-- `checked_add_signed` of whole hours.  A leap second is left by any step; a date out of range is
`None`. -/
def checkedAddHours (t : Instant) (hours : Int) : Option Instant :=
  let leap := 1000000000 ≤ t.nanos ∧ hours ≠ 0
  let nanos := if leap then t.nanos - 1000000000 else t.nanos
  let second := (if leap ∧ hours < 0 then t.second + 1 else t.second) + hours * 3600
  let day := t.day + second / 86400
  if h : firstDay ≤ day ∧ day ≤ lastDay then
    some ⟨day, second % 86400, nanos, h, by omega, by have := t.nanos_range; unfold nanos leap; omega⟩
  else none

/-- `and_hms_opt` on the date of an instant, read as UTC. -/
def atClock (t : Instant) (hour minute : Int) : Option Instant :=
  if h : 0 ≤ hour ∧ hour < 24 ∧ 0 ≤ minute ∧ minute < 60 then
    some ⟨t.day, hour * 3600 + minute * 60, 0, t.day_range, by omega, by omega⟩
  else none

end Instant

/-- `void_open`. -/
def voidOpen (issued now : Instant) : Bool :=
  match issued.checkedAddHours 6 with
  | none => false
  | some localTime =>
    match localTime.atClock 23 30 with
    | none => false
    | some close =>
      match close.checkedAddHours (-6) with
      | none => false
      | some close => decide (¬ now.Before issued ∧ now.Before close)

/-! ## Dhaka -/

namespace Instant

/-- The date in Dhaka, six hours ahead of UTC all year. -/
def dhakaDay (t : Instant) : Int := t.day + (t.second + 6 * 3600) / 86400

/-- The second of the day in Dhaka. -/
def dhakaSecond (t : Instant) : Int := (t.second + 6 * 3600) % 86400

/-- 23:30 of the day in Dhaka. -/
def cutoff : Int := 23 * 3600 + 30 * 60

theorem not_before_self (t : Instant) : ¬ t.Before t := by
  unfold Before
  omega

end Instant

variable {issued now : Instant}

theorem checkedAddHours_dhaka (h : issued.dhakaDay ≤ lastDay) :
    ∃ u, issued.checkedAddHours 6 = some u ∧ u.day = issued.dhakaDay := by
  have hday := issued.day_range
  have hsecond := issued.second_range
  have hsame : (if (1000000000 ≤ issued.nanos ∧ (6 : Int) ≠ 0) ∧ (6 : Int) < 0 then issued.second + 1
      else issued.second) = issued.second := if_neg fun hneg => absurd hneg.2 (by decide)
  unfold Instant.dhakaDay at h ⊢
  refine ⟨_, dif_pos ?_, ?_⟩
  · rw [hsame]
    omega
  · show issued.day + (_ + 6 * 3600) / 86400 = _
    rw [hsame]

theorem checkedAddHours_beyond (h : lastDay < issued.dhakaDay) : issued.checkedAddHours 6 = none := by
  have hsame : (if (1000000000 ≤ issued.nanos ∧ (6 : Int) ≠ 0) ∧ (6 : Int) < 0 then issued.second + 1
      else issued.second) = issued.second := if_neg fun hneg => absurd hneg.2 (by decide)
  unfold Instant.dhakaDay at h
  refine dif_neg fun hrange => ?_
  rw [hsame] at hrange
  omega

theorem atClock_cutoff (t : Instant) : ∃ u, t.atClock 23 30 = some u ∧ u.day = t.day ∧
    u.second = Instant.cutoff ∧ u.nanos = 0 :=
  ⟨_, dif_pos (by decide), rfl, rfl, rfl⟩

theorem checkedAddHours_cutoff {t : Instant} (hsecond : t.second = Instant.cutoff) (hnanos : t.nanos = 0) :
    ∃ u, t.checkedAddHours (-6) = some u ∧ u.day = t.day ∧ u.second = 17 * 3600 + 30 * 60 ∧ u.nanos = 0 := by
  obtain ⟨day, second, nanos, hday, _, _⟩ := t
  obtain rfl : second = 84600 := hsecond
  obtain rfl : nanos = 0 := hnanos
  have hrange : firstDay ≤ day + 0 ∧ day + 0 ≤ lastDay := by omega
  exact ⟨_, dif_pos hrange, Int.add_zero day, rfl, rfl⟩

/-- The window ends at 17:30 UTC of the day the issue has in Dhaka. -/
theorem voidOpen_eq (issued now : Instant) : voidOpen issued now = true ↔
    issued.dhakaDay ≤ lastDay ∧ ¬ now.Before issued ∧
      (now.day < issued.dhakaDay ∨
        now.day = issued.dhakaDay ∧ now.second < 17 * 3600 + 30 * 60) := by
  rcases lt_or_ge lastDay issued.dhakaDay with hbeyond | hday
  · rw [voidOpen, checkedAddHours_beyond hbeyond]
    exact iff_of_false Bool.false_ne_true fun h => absurd h.1 (by omega)
  · obtain ⟨localTime, hlocal, hlocalDay⟩ := checkedAddHours_dhaka hday
    obtain ⟨clock, hclock, hclockDay, hclockSecond, hclockNanos⟩ := atClock_cutoff localTime
    obtain ⟨close, hclose, hcloseDay, hcloseSecond, hcloseNanos⟩ :=
      checkedAddHours_cutoff hclockSecond hclockNanos
    have hnanos := now.nanos_range
    have hbefore : now.Before close ↔ now.day < issued.dhakaDay ∨
        now.day = issued.dhakaDay ∧ now.second < 17 * 3600 + 30 * 60 := by
      unfold Instant.Before
      rw [hcloseDay, hclockDay, hlocalDay, hcloseSecond, hcloseNanos]
      omega
    simp only [voidOpen, hlocal, hclock, hclose, decide_eq_true_eq, hbefore, hday, true_and]

/-- An instant from the issue on lies before the end exactly on the issue's date in Dhaka, before 23:30. -/
theorem voidOpen_iff (issued now : Instant) : voidOpen issued now = true ↔
    issued.dhakaDay ≤ lastDay ∧ ¬ now.Before issued ∧ now.dhakaDay = issued.dhakaDay ∧
      now.dhakaSecond < Instant.cutoff := by
  have hissued := issued.second_range
  have hnow := now.second_range
  rw [voidOpen_eq]
  unfold Instant.Before Instant.dhakaDay Instant.dhakaSecond Instant.cutoff
  omega

/-- What is open at an instant was open at every instant since the issue. -/
theorem voidOpen_since {t : Instant} (h : voidOpen issued now = true) (hissued : ¬ t.Before issued)
    (hnow : ¬ now.Before t) : voidOpen issued t = true := by
  rw [voidOpen_eq] at h ⊢
  refine ⟨h.1, hissued, ?_⟩
  unfold Instant.Before at hnow
  omega

/-- The window of an issue whose time in Dhaka is in range: the rest of the issue's own date there up
to 23:30, from the issue on and without a gap. -/
theorem void_window (issued : Instant) :
    (∀ now, voidOpen issued now = true ↔
      issued.dhakaDay ≤ lastDay ∧ ¬ now.Before issued ∧ now.dhakaDay = issued.dhakaDay ∧
        now.dhakaSecond < Instant.cutoff) ∧
    (∀ now t, voidOpen issued now = true → ¬ t.Before issued → ¬ now.Before t →
      voidOpen issued t = true) ∧
    ((∀ now, voidOpen issued now = false) ↔
      Instant.cutoff ≤ issued.dhakaSecond ∨ lastDay < issued.dhakaDay) ∧
    (∀ now t, ¬ now.Before issued → voidOpen issued now = false → ¬ t.Before now →
      voidOpen issued t = false) := by
  refine ⟨voidOpen_iff issued, fun now t h => voidOpen_since h, ?_, ?_⟩
  · constructor
    · intro hempty
      by_contra hearly
      have hopen : voidOpen issued issued = true :=
        (voidOpen_iff issued issued).mpr ⟨by omega, Instant.not_before_self issued, rfl, by omega⟩
      rw [hempty issued] at hopen
      cases hopen
    · intro hlate now
      rw [Bool.eq_false_iff]
      intro hopen
      -- The window would be open at the issue itself.
      have hsince := ((voidOpen_iff issued now).mp hopen).2.1
      have hfirst := voidOpen_since hopen (Instant.not_before_self issued) hsince
      obtain ⟨hday, -, -, hearly⟩ := (voidOpen_iff issued issued).mp hfirst
      omega
  · intro now t hissued hclosed hlater
    rw [Bool.eq_false_iff] at hclosed ⊢
    exact fun hopen => hclosed (voidOpen_since hopen hissued hlater)

/-- The last instant chrono has. -/
def lastInstant : Instant :=
  ⟨lastDay, 86399, 999999999, by decide, by decide, by decide⟩

/-- The time in Dhaka of the last instant, 05:59 of the next day, is out of range: its window is closed
although 23:30 of that day is still to come. -/
theorem void_window_beyond : ¬ (voidOpen lastInstant lastInstant = true ↔
    ¬ lastInstant.Before lastInstant ∧ lastInstant.dhakaDay = lastInstant.dhakaDay ∧
      lastInstant.dhakaSecond < Instant.cutoff) := by
  decide

/-- A ticket issued at 20:00 UTC, 02:00 of the next day in Dhaka, can be voided until 17:30 UTC of that
day. -/
example (second : Int) (h : 0 ≤ second ∧ second < 86400) :
    voidOpen ⟨20713, 72000, 0, by decide, by decide, by decide⟩
      ⟨20714, second, 0, by decide, h, by decide⟩ = true ↔ second < 63000 := by
  rw [voidOpen_iff]
  unfold Instant.Before Instant.dhakaDay Instant.dhakaSecond Instant.cutoff lastDay
  dsimp only
  omega

end ShaponTravels.Wallet.TicketManagement
