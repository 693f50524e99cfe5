import Trueup.Identity.DepositService
import Trueup.Identity.WithdrawalService
import Trueup.Orders.Deliveries

/-! # The system

The units of work of the application, as one labelled step each, and the states they reach from a
database without any ledger, order or lot. -/

namespace Trueup.System

open Trueup.Core Trueup.Models Trueup.Lib Trueup.Lib.Transaction Trueup.Identity Trueup.Lots
open Trueup.Orders

/-- A unit of work of the application. -/
inductive Op
  | initiateDeposit (customerId : Uuid) (amount : Money)
  | confirmSettlement (obligationId : Uuid)
  | applyAchReturn (obligationId : Uuid)
  | initiateWithdrawal (customerId : Uuid) (amount : Money)
  | placeOrder (request : OrderCreationRequest) (designatedLotIds : Option (List Uuid))
  | approve (orderId : Uuid)
  | submitToBroker (orderId : Uuid) (broker : Except Error String)
  | tradeUpdate (fault : Option HandleStage) (message : TradeUpdate)
  | applySplit (securityId : Uuid) (ratio : SplitRatio) (effectiveDate : Date)

/-- A unit of work with what it reads from outside the database. -/
structure Step where
  env : Env
  op : Op

/-- The body of a unit of work. -/
def body (step : Step) : Tx Unit :=
  match step.op with
  | .initiateDeposit customerId amount => do
    let _ ← initiateDeposit step.env customerId amount
  | .confirmSettlement obligationId => confirmSettlement step.env obligationId
  | .applyAchReturn obligationId => applyAchReturn step.env obligationId
  | .initiateWithdrawal customerId amount => do
    let _ ← initiateWithdrawal step.env customerId amount
  | .placeOrder request designatedLotIds => do
    let _ ← placeOrder step.env request designatedLotIds
  | .approve orderId => do
    let _ ← approve orderId
  | .submitToBroker orderId broker => submitToBroker step.env orderId broker
  | .tradeUpdate fault message => do
    let _ ← handle step.env fault message
  | .applySplit securityId ratio effectiveDate =>
    applySplit step.env securityId ratio effectiveDate

/-- The database of a serial run. -/
abbrev run (steps : List Step) (db : Database) : Database := runs body steps db

/-- Nothing has been posted, ordered or bought yet. Customers, bank links, accounts, calendar,
closes and published figures are arbitrary. -/
structure Fresh (db : Database) : Prop where
  journalEntries : db.journalEntries = ∅
  postings : db.postings = []
  settlementObligations : db.settlementObligations = ∅
  orders : db.orders = ∅
  orderEvents : db.orderEvents = ∅
  approvalHolds : db.approvalHolds = ∅
  taxLots : db.taxLots = ∅
  lotConsumptions : db.lotConsumptions = ∅
  washSaleAdjustments : db.washSaleAdjustments = ∅

/-- The states of the serial runs from a fresh database. -/
def Reachable (db : Database) : Prop := ∃ db₀ steps, Fresh db₀ ∧ run steps db₀ = db

/-- **The invariant rule of the system.** -/
theorem reachable_of_keeps {I : Database → Prop} (hinit : ∀ db, Fresh db → I db)
    (hstep : ∀ step, Keeps I (body step)) {db : Database} (h : Reachable db) : I db := by
  obtain ⟨db₀, steps, hfresh, rfl⟩ := h
  exact runs_keeps steps (fun step _ => hstep step) (hinit db₀ hfresh)

theorem keeps_discard {α : Type} {I : Database → Prop} {x : Tx α} (h : Keeps I x) :
    Keeps I (do let _ ← x) := keeps_bind h fun _ => keeps_pure _

theorem discard_ok {α : Type} {x : Tx α} {db db' : Database} {u : Unit}
    (h : (do let _ ← x : Tx Unit).run db = .ok (u, db')) : ∃ a, x.run db = .ok (a, db') := by
  obtain ⟨a, _, hrun, hpure⟩ := bind_ok.mp h
  obtain ⟨-, rfl⟩ := pure_ok.mp hpure
  exact ⟨a, hrun⟩

theorem fresh_openedAccount (customerId : Uuid) : Fresh (openedAccount customerId) :=
  ⟨rfl, rfl, rfl, rfl, rfl, rfl, rfl, rfl, rfl⟩

end Trueup.System
