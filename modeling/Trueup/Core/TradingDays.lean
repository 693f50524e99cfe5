import Mathlib.Data.Int.ConditionallyCompleteOrder
import Mathlib.Data.Int.Interval
import Mathlib.Tactic.Ring
import Trueup.Core.Clock
import Trueup.Lib.BoundedSearch

/-! # Trading-day arithmetic

`next_trading_day`, `previous_trading_day` and `add_trading_days` as a walk over the days, in either
direction. The days of trading are counted, and the walk goes back the way it came.

* `addTradingDays_ok`: where `n` trading days lead.
* `tradingDays_after`, `tradingDays_before`: how many trading days that is.
* `trading_day_arithmetic`: when it leads anywhere, and that `-n` trading days lead back. -/

namespace Trueup.Core

open Trueup.Models Trueup.Lib.Transaction Trueup.Lib.BoundedSearch

/-- `InMemoryTradingCalendar`, with the instants at which the sessions end. -/
def inMemoryTradingCalendar (holidays : List Date) (close : Date → Instant) : TradingCalendar where
  isTradingDay d := .ok (decide ((d + 3) % 7 < 5 ∧ d ∉ holidays))
  sessionClose d := .ok (if (d + 3) % 7 < 5 ∧ d ∉ holidays then some (close d) else none)

namespace MarketClock

/-- What the search learns of a day: nothing of one that is no `date`. -/
def visit (clock : MarketClock) (d : Date) : Except Error Bool :=
  if IsDate d then clock.calendar.isTradingDay d else .error .overflowError

/-- The days one after the other, from the day after or before `d`. -/
def ahead (clock : MarketClock) (d : Date) (step : ℤ) (k : ℕ) : Except Error Bool :=
  clock.visit (d + step * k)

/-- A `date` on which there is trading. -/
def Trades (clock : MarketClock) (d : Date) : Prop := clock.visit d = .ok true

instance (clock : MarketClock) : DecidablePred clock.Trades := fun d =>
  match h : clock.visit d with
  | .ok true => isTrue h
  | .ok false => isFalse fun h' => by cases h.symm.trans h'
  | .error _ => isFalse fun h' => by cases h.symm.trans h'

/-- How many of the days there is trading on. -/
def tradingDays (clock : MarketClock) (days : Finset Date) : ℕ := (days.filter clock.Trades).card

/-- A run of 14 days without trading is met before there have been `n` trading days. -/
def MeetsGap (clock : MarketClock) (d : Date) (n : ℤ) : Prop :=
  Gap (clock.ahead d n.sign) maxCalendarSearchDays n.natAbs 0

/-- A day that is no `date`, or of which the calendar raises, is met before there have been `n`
trading days. -/
def LeavesCalendar (clock : MarketClock) (d : Date) (n : ℤ) : Prop :=
  Unanswered (clock.ahead d n.sign) n.natAbs 0

variable {clock : MarketClock} {d e : Date} {n step : ℤ}

/-! ### The walk -/

theorem searchTradingDay_eq (fuel k : ℕ) : clock.searchTradingDay step fuel (d + step * k) =
    (search (clock.ahead d step) .calendarExhausted fuel k).map fun m : ℕ => d + step * m := by
  induction fuel generalizing k with
  | zero => rfl
  | succ fuel ih =>
    have hnext : d + step * k + step = d + step * (k + 1 : ℕ) := by push_cast; ring
    have hrest := ih (k + 1)
    rw [searchTradingDay, search, addDays, ahead, visit, hnext]
    by_cases hdate : IsDate (d + step * (k + 1 : ℕ))
    · rw [if_pos hdate, if_pos hdate]
      show (clock.calendar.isTradingDay _ >>= _) = _
      rcases clock.calendar.isTradingDay (d + step * (k + 1 : ℕ)) with _ | _ | _
      · rfl
      · exact hrest
      · rfl
    · rw [if_neg hdate, if_neg hdate]
      rfl

theorem iterate_eq (count k : ℕ) :
    iterate (clock.searchTradingDay step maxCalendarSearchDays) count (d + step * k) =
      (walk (clock.ahead d step) .calendarExhausted maxCalendarSearchDays count k).map
        fun m : ℕ => d + step * m := by
  induction count generalizing k with
  | zero => rfl
  | succ count ih =>
    rw [iterate, walk, searchTradingDay_eq]
    rcases search (clock.ahead d step) .calendarExhausted maxCalendarSearchDays k with _ | m
    · rfl
    · exact ih m

/-- `add_trading_days` is a walk over the days. -/
theorem addTradingDays_eq : clock.addTradingDays d n =
    (walk (clock.ahead d n.sign) .calendarExhausted maxCalendarSearchDays n.natAbs 0).map
      fun m : ℕ => d + n.sign * m := by
  have hstart : ∀ step : ℤ, d = d + step * (0 : ℕ) := by simp
  rw [addTradingDays]
  rcases lt_trichotomy n 0 with hneg | rfl | hpos
  · rw [if_neg (not_le.mpr hneg), Int.sign_eq_neg_one_of_neg hneg, ← iterate_eq, ← hstart]
    rfl
  · simp [iterate, walk, Except.map]
  · rw [if_pos hpos.le, Int.sign_eq_one_of_pos hpos, ← iterate_eq, ← hstart]
    rfl

/-- **Where `n` trading days lead.** -/
theorem addTradingDays_ok : clock.addTradingDays d n = .ok e ↔ ∃ m : ℕ,
    Reaches (clock.ahead d n.sign) maxCalendarSearchDays n.natAbs 0 m ∧ e = d + n.sign * m := by
  have hwindow : 0 < maxCalendarSearchDays := by decide
  rw [addTradingDays_eq]
  constructor
  · intro h
    cases hwalk : walk (clock.ahead d n.sign) .calendarExhausted maxCalendarSearchDays n.natAbs 0 with
    | error e' =>
      rw [hwalk] at h
      cases h
    | ok m =>
      rw [hwalk] at h
      cases h
      exact ⟨m, walk_reaches hwindow hwalk, rfl⟩
  · rintro ⟨m, hreaches, rfl⟩
    rw [hreaches.walk hwindow]
    rfl

/-! ### The count -/

theorem tradingDays_eq_hits {days : Finset Date} {m : ℕ} (hstep : step ≠ 0)
    (hdays : ∀ x, x ∈ days ↔ ∃ k : ℕ, 0 < k ∧ k ≤ m ∧ x = d + step * k) :
    clock.tradingDays days = hits (clock.ahead d step) 0 m := by
  have himage : days.filter clock.Trades =
      ((Finset.Ioc 0 m).filter fun k => isHit (clock.ahead d step) k).image
        fun k : ℕ => d + step * k := by
    ext x
    simp only [Finset.mem_filter, Finset.mem_image, Finset.mem_Ioc, hdays, isHit_iff]
    constructor
    · rintro ⟨⟨k, hpos, hle, rfl⟩, htrades⟩
      exact ⟨k, ⟨⟨hpos, hle⟩, htrades⟩, rfl⟩
    · rintro ⟨k, ⟨⟨hpos, hle⟩, htrades⟩, rfl⟩
      exact ⟨⟨k, hpos, hle, rfl⟩, htrades⟩
  have hinjective : Function.Injective fun k : ℕ => d + step * k := by
    intro k k' h
    have hmul : step * (k : ℤ) = step * k' := add_left_cancel h
    exact_mod_cast mul_left_cancel₀ hstep hmul
  rw [tradingDays, himage, Finset.card_image_of_injective _ hinjective]
  rfl

theorem mem_daysAfter {d x : ℤ} {m : ℕ} :
    x ∈ Finset.Ioc d (d + 1 * m) ↔ ∃ k : ℕ, 0 < k ∧ k ≤ m ∧ x = d + 1 * k := by
  rw [Finset.mem_Ioc]
  constructor
  · rintro ⟨hlow, hhigh⟩
    exact ⟨(x - d).toNat, by omega, by omega, by omega⟩
  · rintro ⟨k, hlow, hhigh, rfl⟩
    omega

theorem mem_daysBefore {d x : ℤ} {m : ℕ} :
    x ∈ Finset.Ico (d + -1 * m) d ↔ ∃ k : ℕ, 0 < k ∧ k ≤ m ∧ x = d + -1 * k := by
  rw [Finset.mem_Ico]
  constructor
  · rintro ⟨hlow, hhigh⟩
    exact ⟨(d - x).toNat, by omega, by omega, by omega⟩
  · rintro ⟨k, hlow, hhigh, rfl⟩
    omega

theorem trades_of_reaches {m : ℕ}
    (h : Reaches (clock.ahead d n.sign) maxCalendarSearchDays n.natAbs 0 m) (hn : n ≠ 0) :
    0 < m ∧ clock.Trades (d + n.sign * m) := by
  have hpos : 0 < n.natAbs := Int.natAbs_pos.mpr hn
  exact ⟨h.lt hpos, h.last hpos⟩

theorem tradingDays_after (hn : 0 < n) (h : clock.addTradingDays d n = .ok e) :
    clock.Trades e ∧ d < e ∧ (clock.tradingDays (Finset.Ioc d e) : ℤ) = n := by
  obtain ⟨m, hreaches, rfl⟩ := addTradingDays_ok.mp h
  obtain ⟨hpos, htrades⟩ := trades_of_reaches hreaches hn.ne'
  have hcount := hreaches.hits_eq
  rw [Int.sign_eq_one_of_pos hn] at htrades hcount ⊢
  have hafter : ∀ d : ℤ, d < d + 1 * m := fun d => by omega
  refine ⟨htrades, hafter d, ?_⟩
  rw [tradingDays_eq_hits one_ne_zero fun x => mem_daysAfter, hcount]
  omega

theorem tradingDays_before (hn : n < 0) (h : clock.addTradingDays d n = .ok e) :
    clock.Trades e ∧ e < d ∧ (clock.tradingDays (Finset.Ico e d) : ℤ) = -n := by
  obtain ⟨m, hreaches, rfl⟩ := addTradingDays_ok.mp h
  obtain ⟨hpos, htrades⟩ := trades_of_reaches hreaches hn.ne
  have hcount := hreaches.hits_eq
  rw [Int.sign_eq_neg_one_of_neg hn] at htrades hcount ⊢
  have hbefore : ∀ d : ℤ, d + -1 * m < d := fun d => by omega
  refine ⟨htrades, hbefore d, ?_⟩
  rw [tradingDays_eq_hits (by norm_num) fun x => mem_daysBefore, hcount]
  omega

/-- **The way back.** -/
theorem addTradingDays_neg (hd : clock.Trades d) (h : clock.addTradingDays d n = .ok e) :
    clock.addTradingDays e (-n) = .ok d := by
  obtain ⟨m, hreaches, rfl⟩ := addTradingDays_ok.mp h
  have hstart : clock.ahead d n.sign 0 = .ok true := by
    rw [ahead, Nat.cast_zero, mul_zero, add_zero]
    exact hd
  refine addTradingDays_ok.mpr ⟨m, ?_, ?_⟩
  · rw [Int.natAbs_neg, Int.sign_neg]
    refine (hreaches.reverse (by decide) hstart).congr fun j _ hj => ?_
    have hday : d + n.sign * m + -n.sign * j = d + n.sign * (m - j : ℕ) := by
      push_cast [Nat.cast_sub hj]
      ring
    rw [ahead, ahead, hday]
  · rw [Int.sign_neg]
    ring

/-- **Trading-day arithmetic is exact.** A result of `n` trading days is a trading day with exactly `n`
of them up to it, and `-n` trading days lead back to a trading day. Where a run of 14 days without
trading is met, the search is exhausted; otherwise there is a result, as long as the days are dates of
which the calendar knows. -/
theorem trading_day_arithmetic (clock : MarketClock) (d : Date) (n : ℤ) :
    (∀ e, clock.addTradingDays d n = .ok e →
      (0 < n → clock.Trades e ∧ d < e ∧ (clock.tradingDays (Finset.Ioc d e) : ℤ) = n) ∧
      (n < 0 → clock.Trades e ∧ e < d ∧ (clock.tradingDays (Finset.Ico e d) : ℤ) = -n) ∧
      (clock.Trades d → clock.addTradingDays e (-n) = .ok d)) ∧
    (clock.MeetsGap d n → clock.addTradingDays d n = .error .calendarExhausted) ∧
    (¬ clock.MeetsGap d n → ¬ clock.LeavesCalendar d n → ∃ e, clock.addTradingDays d n = .ok e) := by
  refine ⟨fun e h => ⟨fun hn => tradingDays_after hn h, fun hn => tradingDays_before hn h,
    fun hd => addTradingDays_neg hd h⟩, fun hgap => ?_, fun hgap hleaves => ?_⟩
  · rw [addTradingDays_eq, walk_of_gap hgap]
    rfl
  · obtain ⟨m, hwalk⟩ := exists_walk .calendarExhausted hgap hleaves
    rw [addTradingDays_eq, hwalk]
    exact ⟨_, rfl⟩

/-- A clock of the weekdays. -/
def weekdays : MarketClock := ⟨Instant.utcDate, inMemoryTradingCalendar [] fun d => d * 86400000000⟩

/-- From a Friday to the Tuesday after, and back. -/
theorem trading_day_arithmetic_weekend : weekdays.addTradingDays 20469 2 = .ok 20473 ∧
    (weekdays.tradingDays (Finset.Ioc 20469 20473) : ℤ) = 2 ∧
    weekdays.addTradingDays 20473 (-2) = .ok 20469 := by
  have hfriday : weekdays.Trades 20469 := by decide
  have hresult : weekdays.addTradingDays 20469 2 = .ok 20473 := by decide
  obtain ⟨hcount, -, hback⟩ := (trading_day_arithmetic weekdays 20469 2).1 20473 hresult
  exact ⟨hresult, (hcount (by norm_num)).2.2, hback hfriday⟩

/-- The day after the last date is none, though no run of days without trading is met. -/
theorem last_date_overflows : ¬ ∀ (clock : MarketClock) (d : Date) (n : ℤ), IsDate d →
    (∀ day, ∃ b, clock.calendar.isTradingDay day = .ok b) →
    ¬ clock.MeetsGap d n → ∃ e, clock.addTradingDays d n = .ok e := by
  intro h
  have hnext : weekdays.addTradingDays maxDate 1 = .error .overflowError := by decide
  have hfirst : weekdays.ahead maxDate (Int.sign 1) 1 = .error .overflowError := by decide
  obtain ⟨e, hresult⟩ := h weekdays maxDate 1 (by decide) (fun day => ⟨_, rfl⟩) (by
    rintro ⟨x, -, -, hanswered, hgap⟩
    cases x with
    | zero =>
      have hclosed := hgap 1 (by decide) (by decide)
      cases hfirst.symm.trans hclosed
    | succ x =>
      obtain ⟨b, hb⟩ := hanswered 1 (by decide) (by omega)
      cases hfirst.symm.trans hb)
  cases hnext.symm.trans hresult

end MarketClock

end Trueup.Core
