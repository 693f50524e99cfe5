import Trueup.Core.Money
import Trueup.Models.Database

/-! # A customer who can fund and trade

The database account approval leaves behind, readings of the outside at a given time, and whole
amounts: the concrete values the runs on fixed inputs are made of. -/

namespace Trueup.Models

open Trueup.Core Trueup.Lib

/-- A day of the calendar on which the market is open. -/
def openDay (day : Date) : MarketCalendarDay := ⟨day, true, some (day * 86400000000)⟩

/-- An approved customer with a bank link and the two accounts that account approval opens; the
market is open on the first four days. -/
def openedAccount (customerId : Uuid) : Database where
  customers := ⟨[⟨customerId, .approved, .approved⟩], by simp⟩
  bankLinks := [⟨1, customerId, "item", .active⟩]
  accounts := [.ofCustomer customerId .cash, .ofCustomer customerId .customerEquity]
  journalEntries := ∅
  postings := []
  settlementObligations := ∅
  orders := ∅
  orderEvents := ∅
  approvalHolds := ∅
  taxLots := ∅
  lotConsumptions := ∅
  washSaleAdjustments := ∅
  securities := ∅
  calendarCache := ⟨[openDay 0, openDay 1, openDay 2, openDay 3], by decide⟩
  dailyCloses := []
  valuationRuns := ∅
  subPeriodReturns := ∅
  publishedSnapshots := []
  restatementEvents := []
  highWaterMarks := ∅
  feeAccruals := ∅
  feeCharges := ∅
  dunningStates := ∅
  paymentMethods := ∅
  chargeFeeJobs := ∅
  feeRestatementDisclosures := []

/-- A reading of the outside at microsecond `t`. The fresh uuids are `id`, moved apart where one
unit of work takes several for the same table; a day of the market is a day of UTC, and no cap or
threshold is in the way. -/
def envAt (t : Instant) (id : Uuid) : Env where
  now _ := ⟨t, true⟩
  transactionStart := t
  uuid4
    | .lotConsumption taxLotId => id + 1000 * taxLotId
    | .washSaleEntry consumptionId => id + 1000 * (consumptionId + 1)
    | .splitEntry customerId => id + 1000 * customerId
    | .dividendEntry customerId => id + 1000 * customerId
    | _ => id
  newYorkDate t := t / 86400000000
  depositCapPerTransaction := ⟨10 ^ 17, by decide⟩
  depositCapPerDay := ⟨10 ^ 17, by decide⟩
  approvalThresholdUsd := ⟨10 ^ 17, by decide⟩

/-- The clock of the market of an opened account. -/
def openedClock : MarketClock := (openedAccount 0).marketClock (envAt 0 0)

/-- A whole number, as a quantized decimal. -/
def whole {s p : ℕ} (h : s + 6 ≤ p) (n : Fin 1000000) : QuantizedDecimal s p := ⟨(n : ℤ) * 10 ^ s, by
  have hn : (n : ℤ) < 10 ^ 6 := by have := n.isLt; omega
  rw [abs_of_nonneg (by positivity)]
  calc (n : ℤ) * 10 ^ s < 10 ^ 6 * 10 ^ s := by gcongr
    _ = 10 ^ (s + 6) := by rw [pow_add, mul_comm]
    _ ≤ 10 ^ p := pow_le_pow_right₀ (by norm_num) h⟩

instance million_neZero : NeZero 1000000 := ⟨by decide⟩

/-- An amount of whole dollars. -/
def dollars (n : Fin 1000000) : Money := whole (by norm_num) n

/-- A quantity of whole shares. -/
def shares (n : Fin 1000000) : Units := whole (by norm_num) n

/-- The smallest quantity: a millionth of a share. -/
def microshare : Units := ⟨1, by decide⟩

/-- A price of whole dollars. -/
def dollarsPerShare (n : Fin 1000000) : Price := whole (by norm_num) n

end Trueup.Models
