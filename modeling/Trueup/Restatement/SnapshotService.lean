import Trueup.Restatement.RestatementService

/-! # Publication

`publish` of `services/restatement/snapshot_service.py`: the return of a period, computed and stored
now, its closing balance and the holdings, pinned to the start of the transaction. `derive` and
`cross_check` of the same service are with `RestatementService`, which calls them. -/

namespace Trueup.Restatement

open Trueup.Core Trueup.Models Trueup.Lib Trueup.Lib.Transaction Trueup.Valuation

/-- One position of `_current_holdings`. -/
def holdingOf (db : Database) (asOfDate : Date) (securityId : Uuid) (units : Units) : Holding where
  securityId := securityId
  symbol := (db.securities.find securityId).map (·.symbol)
  quantity := units
  closePrice := (latestConfirmed db securityId asOfDate).map (·.closePrice)

/-- `_current_holdings`: the positions that are not zero, as `position_units` adds them up. -/
def currentHoldings (db : Database) (customerId : Uuid) (asOfDate : Date) :
    Except Error (List Holding) := do
  let positions ← positionUnits db customerId asOfDate
  return (positions.filter fun position => position.2 ≠ 0).map fun (securityId, units) =>
    holdingOf db asOfDate securityId units

/-- `publish`. -/
def publish (env : Env) (customerId : Uuid) (periodStart periodEnd : Date) :
    Tx PublishedSnapshot := do
  let (twr, subPeriods) ← computeTwr env customerId periodStart periodEnd
  let holdings ← read fun db => currentHoldings db customerId periodEnd
  let snapshot : PublishedSnapshot := {
    customerId, periodStart, periodEnd, publishWatermark := env.transactionStart, twr
    balance := (subPeriods.getLast?.map (·.valueEnd)).getD 0
    holdings, publishedAt := env.transactionStart }
  addPublishedSnapshot snapshot
  return snapshot

/-- **What `publish` did**: the return was computed, then the snapshot was stored. -/
theorem publish_ok {env : Env} {customerId : Uuid} {periodStart periodEnd : Date}
    {snapshot : PublishedSnapshot} {db db' : Database}
    (h : (publish env customerId periodStart periodEnd).run db = .ok (snapshot, db')) :
    ∃ twr subPeriods holdings mid,
      (computeTwr env customerId periodStart periodEnd).run db = .ok ((twr, subPeriods), mid) ∧
      currentHoldings mid customerId periodEnd = .ok holdings ∧
      snapshot = ⟨customerId, periodStart, periodEnd, env.transactionStart, twr,
        (subPeriods.getLast?.map (·.valueEnd)).getD 0, holdings, env.transactionStart⟩ ∧
      db' = { mid with publishedSnapshots := mid.publishedSnapshots ++ [snapshot] } := by
  simp only [publish, bind_ok, read_ok, addPublishedSnapshot_ok, pure_ok] at h
  obtain ⟨⟨twr, subPeriods⟩, mid, hrun, holdings, _, ⟨hholdings, rfl⟩, _, _, ⟨-, rfl⟩, rfl, rfl⟩ := h
  exact ⟨twr, subPeriods, holdings, mid, hrun, hholdings, rfl, rfl⟩

end Trueup.Restatement
