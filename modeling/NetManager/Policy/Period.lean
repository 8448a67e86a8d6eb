import Mathlib.Data.Nat.Find
import Mathlib.Order.WellFounded
import NetManager.Policy.Traffic

/-!
# The start of a quota period

`GetPeriodStart` overwrites fields of the time of day and gives them to `mktime`. It does
not go back to the day, month or year before, and `mktime` ignores the day of the year.
-/

namespace NetManager.Policy.NetQuotaPolicy

/-- The length of a month, where months are counted from January 1970. -/
def monthLength (month : Nat) : Nat :=
  let year := 1970 + month / 12
  if month % 12 = 1 then
    if year % 4 = 0 ∧ year % 100 ≠ 0 ∨ year % 400 = 0 then 29 else 28
  else if [3, 5, 8, 10].contains (month % 12) then 30
  else 31

/-- The first day of a month, where days are counted from 1970. -/
def firstDay : Nat → Nat
  | 0 => 0
  | month + 1 => firstDay month + monthLength month

def monthOf (day : Nat) : Nat := Nat.findGreatest (firstDay · ≤ day) day

/-- `struct tm`, with `tm_year` and `tm_mon` as one number of months. -/
structure Tm where
  sec : Int
  min : Int
  hour : Int
  mday : Int
  mon : Nat
  yday : Int

/-- `localtime_r` in UTC. -/
def localtime (now : Nat) : Tm :=
  let day := now / 86400
  let mon := monthOf day
  { sec := now % 60
    min := now / 60 % 60
    hour := now / 3600 % 24
    mday := day - firstDay mon + 1
    mon := mon
    yday := day - firstDay (mon / 12 * 12) }

/-- `mktime` puts the fields into range and does not read `tm_yday`. -/
def mktime (tm : Tm) : Int :=
  (firstDay tm.mon + tm.mday - 1) * 86400 + tm.hour * 3600 + tm.min * 60 + tm.sec

def getPeriodStart (quotaPolicy : NetQuotaPolicy) (now : Nat) : Int :=
  let periodDuration :=
    if quotaPolicy.periodDuration.length < 2 then ['M'] else quotaPolicy.periodDuration.toList
  let start := (CommonUtils.strToInt (String.ofList (periodDuration.drop 1)) (-1)).toInt
  let tm := localtime now
  if periodDuration.take 1 = ['D'] then mktime { tm with hour := start, min := 0, sec := 0 }
  else if periodDuration.take 1 = ['Y'] then
    mktime { tm with hour := 0, min := 0, sec := 0, yday := start - 1 }
  else mktime { tm with hour := 0, min := 0, sec := 0, mday := start }

inductive Cycle
  | day
  | month
  | year

def Cycle.letter : Cycle → Char
  | .day => 'D'
  | .month => 'M'
  | .year => 'Y'

/-- `DAY_MAX`, `MONTH_MAX` and `YEAR_MAX` of `IsValidPeriodDuration`. -/
def Cycle.last : Cycle → Int
  | .day => 31
  | .month => 12
  | .year => 366

structure Period where
  cycle : Cycle
  start : Int32
  positive : 0 < start.toInt
  le_last : start.toInt ≤ cycle.last

namespace Period

variable (period : Period)

def text : String := String.ofList (period.cycle.letter :: period.start.toInt.repr.toList)

/-- An hour of some day, or midnight of a day of some month or year. -/
def Begins (instant : Int) : Prop :=
  match period.cycle with
  | .day => ∃ day : Int, instant = day * 86400 + period.start.toInt * 3600
  | .month => ∃ month, instant = (firstDay month + period.start.toInt - 1) * 86400
  | .year => ∃ year, instant = (firstDay (year * 12) + period.start.toInt - 1) * 86400

/-- The period began in this day or this month, or it begins in this day of the year. -/
def Begun (now : Nat) : Prop :=
  match period.cycle with
  | .day => period.start.toInt * 3600 ≤ now % 86400
  | .month => firstDay (monthOf (now / 86400)) + period.start.toInt ≤ now / 86400 + 1
  | .year => ∃ year, firstDay (year * 12) + period.start.toInt = now / 86400 + 1

end Period

theorem firstDay_strictMono : StrictMono firstDay :=
  strictMono_nat_of_lt_succ fun month => by
    have positive : 0 < monthLength month := by
      unfold monthLength
      grind
    exact Nat.lt_add_of_pos_right positive

theorem le_monthOf_iff (day month : Nat) : month ≤ monthOf day ↔ firstDay month ≤ day := by
  constructor
  · intro le
    have reached : firstDay (monthOf day) ≤ day :=
      Nat.findGreatest_spec (P := (firstDay · ≤ day)) (Nat.zero_le day) (Nat.zero_le day)
    exact (firstDay_strictMono.monotone le).trans reached
  · intro le
    exact Nat.le_findGreatest (firstDay_strictMono.le_apply.trans le) le

theorem getPeriodStart_text {quotaPolicy : NetQuotaPolicy} {period : Period} :
    getPeriodStart { quotaPolicy with periodDuration := period.text } now =
      match period.cycle with
      | .day => now / 86400 * 86400 + period.start.toInt * 3600
      | .month => (firstDay (monthOf (now / 86400)) + period.start.toInt - 1) * 86400
      | .year => now / 86400 * 86400 := by
  have long : ¬ period.text.length < 2 := by
    have written : period.start.toInt.repr ≠ "" := by
      intro none
      have read := none ▸ @CommonUtils.strToInt_repr (-1) period.start
      exact absurd (read ▸ period.positive) (by decide)
    simpa [Period.text, Nat.lt_succ_iff, Nat.pos_iff_ne_zero] using written
  unfold getPeriodStart
  simp only [if_neg long]
  cases is : period.cycle <;> simp [Period.text, is, Cycle.letter, mktime, localtime] <;> omega

/-- The start of a period is the latest one if it has come in this day, month or year. -/
theorem isGreatest_getPeriodStart_iff (quotaPolicy : NetQuotaPolicy) (period : Period) (now : Nat) :
    IsGreatest {instant | period.Begins instant ∧ instant ≤ now}
        (getPeriodStart { quotaPolicy with periodDuration := period.text } now) ↔
      period.Begun now := by
  rw [getPeriodStart_text]
  obtain ⟨cycle, start, positive, last⟩ := period
  unfold Period.Begins Period.Begun IsGreatest upperBounds
  cases cycle <;> dsimp only [Cycle.last] at last ⊢
  case day =>
    constructor
    · rintro ⟨⟨-, past⟩, -⟩
      omega
    · intro begun
      refine ⟨⟨⟨_, rfl⟩, by omega⟩, ?_⟩
      rintro _ ⟨⟨day, rfl⟩, past⟩
      omega
  case month =>
    constructor
    · rintro ⟨⟨-, past⟩, -⟩
      omega
    · intro begun
      refine ⟨⟨⟨_, rfl⟩, by omega⟩, ?_⟩
      rintro _ ⟨⟨month, rfl⟩, past⟩
      have le : month ≤ monthOf (now / 86400) := (le_monthOf_iff _ _).mpr (by omega)
      have before := firstDay_strictMono.monotone le
      omega
  case year =>
    constructor
    · rintro ⟨⟨⟨year, first⟩, -⟩, -⟩
      exact ⟨year, by omega⟩
    · rintro ⟨year, first⟩
      refine ⟨⟨⟨year, by omega⟩, by omega⟩, ?_⟩
      rintro _ ⟨⟨other, rfl⟩, past⟩
      omega

/-- At midnight, one o'clock of this day has not come. -/
theorem not_isGreatest_getPeriodStart_oneOClock :
    ¬ IsGreatest
        {instant | (⟨.day, 1, by decide, by decide⟩ : Period).Begins instant ∧ instant ≤ (0 : Nat)}
        (getPeriodStart { periodDuration := "D1" } 0) := by
  rintro ⟨⟨-, past⟩, -⟩
  exact absurd past (by decide)

end NetManager.Policy.NetQuotaPolicy
