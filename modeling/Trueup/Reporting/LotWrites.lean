import Trueup.Reporting.Writes

/-! # What the writes of the lots keep

The operations on the lots write journal entries and stored sub-periods like the others, and beside
them only the tables of the lots. `KeptByEntries env I` says that the writes of entries and of
sub-periods keep `I`, which does not look at any other table; then every operation but the
publication does (`KeptByEntries.body`). -/

namespace Trueup.Reporting

open Trueup.Core Trueup.Models Trueup.Lib Trueup.Lib.Transaction Trueup.Ledger Trueup.Valuation
open Trueup.Identity Trueup.Orders Trueup.Lots Trueup.Restatement Trueup.Fees

/-- The tables of the ledger and of the figures, without the lots. -/
def reportView (db : Database) : Table JournalEntry.id × List Posting ×
    Table SubPeriodReturn.key × List PublishedSnapshot × Table Security.id :=
  (db.journalEntries, db.postings, db.subPeriodReturns, db.publishedSnapshots, db.securities)

/-! ### Lots that are taken or multiplied -/

section Frames
variable {env : Env}

/-- The lots of a sell fill are taken without a word to the ledger or the figures. -/
theorem frames_takeFromLot (fill : Fill) (fillDate : Date) (lot : TaxLot) (take : Units)
    (sale : Sale) : Frames reportView (takeFromLot env fill fillDate lot take sale) := by
  refine frames_bind (frames_lift _) fun _ => frames_bind (frames_lift _) fun _ =>
    frames_bind (frames_lift _) fun _ => frames_bind (frames_lift _) fun _ =>
    frames_bind (frames_of fun db a db' h => ?_) fun _ => frames_bind (frames_lift _) fun _ =>
    frames_bind (frames_lift _) fun _ => frames_bind (frames_lift _) fun _ =>
    frames_bind (frames_of fun db a db' h => ?_) fun _ => frames_bind (frames_lift _) fun _ =>
    frames_bind (frames_lift _) fun _ => frames_bind (frames_lift _) fun _ => frames_pure _
  · obtain ⟨-, t, -, rfl⟩ := addLotConsumption_ok.mp h
    rfl
  · rw [setTaxLot_ok.mp h]
    rfl

theorem frames_consumeLots (fill : Fill) (fillDate : Date) : ∀ lotIds sale,
    Frames reportView (consumeLots env fill fillDate lotIds sale)
  | [], _ => frames_pure _
  | lotId :: lotIds, sale => by
    refine frames_ite (frames_pure _) (frames_bind ?_ fun sale =>
      frames_consumeLots fill fillDate lotIds sale)
    exact frames_bind (frames_read _) fun _ =>
      frames_ite (frames_pure _) (frames_takeFromLot _ _ _ _ _)

theorem frames_selectLotsToConsume (customerId securityId : Uuid)
    (designatedLotIds : Option (List Uuid)) :
    Frames reportView (selectLotsToConsume customerId securityId designatedLotIds) := by
  unfold selectLotsToConsume
  split
  · exact frames_read _
  · refine frames_bind (frames_each fun lotId _ => ?_) fun _ => frames_pure _
    refine frames_bind (frames_read _) fun _ => frames_bind (frames_lift _) fun _ =>
      frames_of fun db a db' h => ?_
    rw [setTaxLot_ok.mp h]
    rfl

theorem frames_scaleLot (ratio : SplitRatio) (lotId : Uuid) :
    Frames reportView (scaleLot ratio lotId) := by
  refine frames_of fun db a db' h => ?_
  obtain ⟨lot, -, lot', -, -, rfl⟩ := scaleLot_ok h
  rfl

end Frames

/-! ### Every write -/

/-- **Every write keeps `I`**: an entry, a recomputation, and what is outside of these tables. -/
structure KeptByEntries (env : Env) (I : Database → Prop) : Prop where
  view : ∀ {db db' : Database}, I db → reportView db' = reportView db → I db'
  entry : ∀ entry legs, Keeps I (writeEntry entry legs)
  returns : ∀ customerId vBegin vEnd, Keeps I (subPeriodReturn env customerId vBegin vEnd)

namespace KeptByEntries

variable {env : Env} {I : Database → Prop} {α : Type} (h : KeptByEntries env I)
include h

theorem toWrites : KeptByWrites env I where
  view hdb hview := by
    simp only [coreView, Prod.mk.injEq] at hview
    obtain ⟨he, hp, -, -, hsec, hr, hs⟩ := hview
    exact h.view hdb (by simp only [reportView, he, hp, hr, hs, hsec])
  entry := h.entry
  returns := h.returns

theorem of_frames {x : Tx α} (hx : Frames reportView x) : Keeps I x := by
  intro db a db' hdb hrun
  exact h.view hdb (hx.eq hrun)

theorem of_ok {x : Tx α}
    (hx : ∀ db a db', x.run db = .ok (a, db') → reportView db' = reportView db) : Keeps I x :=
  h.of_frames (frames_of hx)

theorem adjust (consumption : LotConsumption) (lot : TaxLot) :
    Keeps I (adjust env consumption lot) := by
  have w := h.toWrites
  refine keeps_bind (w.getOrCreateCustomerAccount _ _ _) fun gainLoss =>
    keeps_bind (w.getOrCreateCustomerAccount _ _ _) fun cost =>
    keeps_bind (w.post _ _ _ _ _) fun entry =>
    keeps_bind (h.of_ok fun db a db' hrun => ?_) fun _ =>
    keeps_bind (keeps_lift _) fun basis =>
    keeps_bind (h.of_ok fun db a db' hrun => ?_) fun _ =>
    keeps_bind (keeps_lift _) fun realized =>
    keeps_bind (h.of_ok fun db a db' hrun => ?_) fun _ => w.restate _ _ _ _ _
  · obtain ⟨t, -, rfl⟩ := addWashSaleAdjustment_ok.mp hrun
    rfl
  · rw [setTaxLot_ok.mp hrun]
    rfl
  · rw [setLotConsumption_ok.mp hrun]
    rfl

theorem applyAdjustment (consumptionId lotId : Uuid) :
    Keeps I (applyAdjustment env consumptionId lotId) :=
  keeps_bind (keeps_read _) fun _ => keeps_bind (keeps_read _) fun _ =>
    keeps_bind (keeps_read _) fun _ => keeps_whenever (h.adjust _ _)

theorem onBuyFill (lot : TaxLot) : Keeps I (onBuyFill env lot) :=
  keeps_bind (keeps_read _) fun _ => keeps_each fun _ _ =>
    keeps_whenever (h.applyAdjustment _ _)

theorem scanLoss (fill : Fill) (consumptionId : Uuid) :
    Keeps I (scanLoss env fill consumptionId) := by
  refine keeps_bind (keeps_read _) fun _ => keeps_whenever (keeps_bind (keeps_read _) fun _ =>
    keeps_whenever (keeps_bind (keeps_read _) fun _ => keeps_whenever
      (keeps_bind (keeps_read _) fun replacement => ?_)))
  cases replacement with
  | none => exact keeps_pure _
  | some lot => exact h.applyAdjustment _ _

theorem recordBuyFill (clock : MarketClock) (fill : Fill) :
    Keeps I (recordBuyFill env clock fill) := by
  have w := h.toWrites
  refine keeps_bind (keeps_lift _) fun _ => keeps_bind (keeps_lift _) fun _ =>
    keeps_bind (w.getOrCreateCustomerAccount _ _ _) fun _ =>
    keeps_bind (w.getOrCreateCustomerAccount _ _ _) fun _ =>
    keeps_bind (keeps_read _) fun _ => keeps_bind (w.post _ _ _ _ _) fun _ =>
    keeps_bind (keeps_lift _) fun _ => keeps_bind (w.addSettlementObligation _) fun _ =>
    keeps_bind (keeps_lift _) fun _ => keeps_bind (keeps_lift _) fun _ =>
    keeps_bind (keeps_lift _) fun lot => keeps_bind (h.of_ok fun db a db' hrun => ?_) fun _ =>
    keeps_bind (h.onBuyFill _) fun _ => keeps_pure _
  obtain ⟨-, -, t, -, rfl⟩ := addTaxLot_ok.mp hrun
  rfl

theorem recordSellFill (clock : MarketClock) (fill : Fill)
    (designatedLotIds : Option (List Uuid)) :
    Keeps I (recordSellFill env clock fill designatedLotIds) := by
  have w := h.toWrites
  have hsell : Frames reportView (sellLots env clock fill designatedLotIds) :=
    frames_bind (frames_lift _) fun _ => frames_bind (frames_selectLotsToConsume _ _ _) fun _ =>
      frames_bind (frames_consumeLots _ _ _ _) fun _ => frames_bind (frames_lift _) fun _ =>
      frames_pure _
  refine keeps_bind (h.of_frames hsell) fun _ => keeps_bind ?_ fun _ =>
    keeps_bind (keeps_lift _) fun _ => keeps_bind (w.addSettlementObligation _) fun _ =>
    keeps_bind (keeps_each fun _ _ => h.scanLoss _ _) fun _ => keeps_pure _
  refine keeps_bind ?_ fun _ => keeps_bind (w.post _ _ _ _ _) fun _ => keeps_pure _
  exact keeps_bind (w.getOrCreateCustomerAccount _ _ _) fun _ =>
    keeps_bind (w.getOrCreateCustomerAccount _ _ _) fun _ => keeps_bind (keeps_read _) fun _ =>
    keeps_bind (w.getOrCreateCustomerAccount _ _ _) fun _ => keeps_bind (keeps_lift _) fun _ =>
    keeps_pure _

theorem applySplit (securityId : Uuid) (ratio : SplitRatio) (effectiveDate : Date) :
    Keeps I (applySplit env securityId ratio effectiveDate) := by
  have w := h.toWrites
  refine keeps_bind (keeps_lift _) fun _ => keeps_bind (keeps_read _) fun _ =>
    keeps_each fun customerId _ => keeps_bind (keeps_read _) fun lots => keeps_whenever ?_
  exact keeps_bind (keeps_lift _) fun _ =>
    keeps_bind (keeps_each fun _ _ => h.of_frames (frames_scaleLot _ _)) fun _ =>
    keeps_bind (keeps_lift _) fun _ => keeps_bind (w.getOrCreateCustomerAccount _ _ _) fun _ =>
    keeps_bind (w.post _ _ _ _ _) fun _ => w.restate _ _ _ _ _

/-! ### Every operation -/

theorem handle (fault : Option HandleStage) (message : TradeUpdate) :
    Keeps I (handle env fault message) := by
  unfold Orders.handle
  split
  · exact keeps_pure _
  · refine keeps_bind (keeps_read _) fun found => keeps_bind (keeps_read _) fun order =>
      keeps_bind (keeps_lift _) fun _ =>
      keeps_bind (h.toWrites.applyNewEvent _ _) fun _ =>
      keeps_bind (keeps_lift _) fun _ => keeps_bind (keeps_whenever ?_) fun _ =>
      keeps_bind (keeps_lift _) fun _ => keeps_pure _
    refine keeps_bind (keeps_lift _) fun _ => keeps_bind (keeps_lift _) fun _ =>
      keeps_bind (keeps_lift _) fun _ => keeps_bind (keeps_read _) fun _ => ?_
    cases order.side with
    | buy => exact keeps_bind (h.recordBuyFill _ _) fun _ => keeps_pure _
    | sell => exact keeps_bind (h.recordSellFill _ _ _) fun _ => keeps_pure _

/-- **Every operation but the publication** keeps `I`. -/
theorem body (op : Op) (hop : ∀ c a b, op ≠ .publish c a b) :
    Keeps I (body ⟨env, op⟩) := by
  by_cases hlots : MovesLots op
  · cases op with
    | application op =>
      cases op with
      | tradeUpdate fault message => exact System.keeps_discard (h.handle fault message)
      | applySplit securityId ratio effectiveDate =>
        exact h.applySplit securityId ratio effectiveDate
      | _ => exact hlots.elim
    | lots op =>
      cases op with
      | buyFill clock fill => exact System.keeps_discard (h.recordBuyFill clock fill)
      | sellFill clock fill designatedLotIds =>
        exact System.keeps_discard (h.recordSellFill clock fill designatedLotIds)
      | split securityId ratio effectiveDate =>
        exact h.applySplit securityId ratio effectiveDate
    | _ => exact hlots.elim
  · exact h.toWrites.body op hlots hop

end KeptByEntries

end Trueup.Reporting
