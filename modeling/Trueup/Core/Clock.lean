import Trueup.Core.Errors
import Trueup.Lib.Rounding

/-! # Instants and market days

`core/clock.py`, the only code that turns an instant into a market day, and `seq_from_timestamp` of
`models/orders/order_event.py`. A calendar answers for a day or raises: the cached calendar of the
application raises on a day it has not fetched. -/

namespace Trueup.Core

open Trueup.Models Trueup.Lib.Rounding

/-- Microseconds since the epoch, UTC. -/
abbrev Instant := Int

/-- A `datetime`: the instant `astimezone(UTC)` makes of it, and whether it carries a time zone. -/
structure Datetime where
  instant : Instant
  aware : Bool
  deriving DecidableEq, Repr

/-- `astimezone(UTC).date()`. -/
def Instant.utcDate (t : Instant) : Date := t / 86400000000

/-- `int(x)` of a float. -/
def truncate (q : ℚ) : ℤ := if 0 ≤ q then ⌊q⌋ else ⌈q⌉

/-- `int(ts.astimezone(UTC).timestamp() * 1_000_000)`: the timestamp is a float, the nearest one to
the number of seconds, and so is the product. -/
def seqFromTimestamp (ts : Datetime) : ℤ :=
  truncate (roundSig 2 53 (roundSig 2 53 (ts.instant / 1000000) * 1000000))

/-- `date.min`. -/
def minDate : Date := -719162

/-- `date.max`. -/
def maxDate : Date := 2932896

/-- A day that is a `date`. -/
def IsDate (d : Date) : Prop := minDate ≤ d ∧ d ≤ maxDate

instance : DecidablePred IsDate := fun _ => inferInstanceAs (Decidable (_ ∧ _))

/-- `d + timedelta(days=days)`. -/
def addDays (d : Date) (days : ℤ) : Except Error Date :=
  if IsDate (d + days) then .ok (d + days) else .error .overflowError

/-- The `TradingCalendar` protocol. -/
structure TradingCalendar where
  isTradingDay : Date → Except Error Bool
  sessionClose : Date → Except Error (Option Instant)

/-- `MarketClock`: a calendar, and the America/New_York date of an instant. -/
structure MarketClock where
  newYorkDate : Instant → Date
  calendar : TradingCalendar

namespace MarketClock

/-- `_MAX_CALENDAR_SEARCH_DAYS`. -/
def maxCalendarSearchDays : ℕ := 14

/-- `market_date`: rejects a naive instant. -/
def marketDate (clock : MarketClock) (t : Datetime) : Except Error Date :=
  if t.aware then .ok (clock.newYorkDate t.instant) else .error .valueError

/-- The search of `next_trading_day` and `previous_trading_day`, by steps of one day. -/
def searchTradingDay (clock : MarketClock) (step : Int) : ℕ → Date → Except Error Date
  | 0, _ => .error .calendarExhausted
  | fuel + 1, d => do
    let candidate ← addDays d step
    if ← clock.calendar.isTradingDay candidate then return candidate
    searchTradingDay clock step fuel candidate

/-- The first trading day strictly after `d`. -/
def nextTradingDay (clock : MarketClock) (d : Date) : Except Error Date :=
  searchTradingDay clock 1 maxCalendarSearchDays d

/-- The first trading day strictly before `d`. -/
def previousTradingDay (clock : MarketClock) (d : Date) : Except Error Date :=
  searchTradingDay clock (-1) maxCalendarSearchDays d

/-- `n` times one step. -/
def iterate (step : Date → Except Error Date) : ℕ → Date → Except Error Date
  | 0, d => .ok d
  | n + 1, d => do iterate step n (← step d)

/-- `add_trading_days`. -/
def addTradingDays (clock : MarketClock) (d : Date) (n : ℤ) : Except Error Date :=
  iterate (if 0 ≤ n then clock.nextTradingDay else clock.previousTradingDay) n.natAbs d

end MarketClock

end Trueup.Core
