import Trueup.Lots.Executions
import Trueup.System

/-! # What is recorded stays recorded

A fill is recorded when its order has the event, a lot or a consumption carries its execution id,
and so does the source of a journal entry (`Recorded`). No step of the system takes any of these
away (`body_grows`), a fill that is handled to the end is recorded (`handle_recorded`), and an
execution id is in the event log only with its lots and its entry (`Logged`). -/

namespace Trueup.Orders

open Trueup.Core Trueup.Models Trueup.Lib Trueup.Lib.Transaction Trueup.Ledger Trueup.Lots
open Trueup.Identity Trueup.System

/-- The execution a journal entry was posted for. -/
def executionOf : SourceEvent → Option ExecutionId
  | .tradeBuyFill _ _ executionId _ _ => some executionId
  | .tradeSellFill _ _ executionId _ _ => some executionId
  | _ => none

/-- The executions of the lots. -/
def openingIds (db : Database) : List ExecutionId :=
  db.taxLots.rows.map TaxLot.openingFillExecutionId

/-- The executions of the consumptions. -/
def closingIds (db : Database) : List ExecutionId :=
  db.lotConsumptions.rows.map LotConsumption.closingFillExecutionId

/-- The order as a message names it. -/
def nameOf (order : Order) : Uuid × ClientOrderId := (order.id, order.clientOrderId)

/-- The execution has its lot or its consumptions, and its journal entry. -/
def Booked (db : Database) (executionId : ExecutionId) : Prop :=
  (executionId ∈ openingIds db ∨ executionId ∈ closingIds db) ∧
    ∃ entry ∈ db.journalEntries, executionOf entry.sourceEvent = some executionId

/-- The fill of the message is recorded: its order has the event, and the execution is booked. -/
def Recorded (db : Database) (message : TradeUpdate) : Prop :=
  ∃ order ∈ db.orders, order.clientOrderId = message.clientOrderId ∧
    ∃ executionId, message.executionId = some executionId ∧
      (∃ event ∈ db.orderEvents, event.orderId = order.id ∧
        event.executionId = some executionId) ∧
      Booked db executionId

/-! ### Growth -/

/-- Nothing a record is made of was taken away. -/
structure Grows (db db' : Database) : Prop where
  orders : db.orders.rows.map nameOf ⊆ db'.orders.rows.map nameOf
  orderEvents : db.orderEvents.rows ⊆ db'.orderEvents.rows
  journalEntries : db.journalEntries.rows ⊆ db'.journalEntries.rows
  openings : openingIds db ⊆ openingIds db'
  closings : closingIds db ⊆ closingIds db'

theorem Grows.refl (db : Database) : Grows db db :=
  ⟨List.Subset.refl _, List.Subset.refl _, List.Subset.refl _, List.Subset.refl _,
    List.Subset.refl _⟩

theorem Grows.trans {db db' db'' : Database} (h : Grows db db') (h' : Grows db' db'') :
    Grows db db'' :=
  ⟨List.Subset.trans h.orders h'.orders, List.Subset.trans h.orderEvents h'.orderEvents,
    List.Subset.trans h.journalEntries h'.journalEntries, List.Subset.trans h.openings h'.openings,
    List.Subset.trans h.closings h'.closings⟩

theorem Booked.mono {db db' : Database} {executionId : ExecutionId} (h : Booked db executionId)
    (hg : Grows db db') : Booked db' executionId := by
  obtain ⟨hlots, entry, hentry, hx⟩ := h
  exact ⟨hlots.imp (hg.openings ·) (hg.closings ·), entry, hg.journalEntries hentry, hx⟩

theorem Recorded.mono {db db' : Database} {message : TradeUpdate} (h : Recorded db message)
    (hg : Grows db db') : Recorded db' message := by
  obtain ⟨order, horder, hclient, x, hx, ⟨event, hevent, hid, hexec⟩, hbooked⟩ := h
  obtain ⟨order', horder', hname⟩ := List.mem_map.mp (hg.orders (List.mem_map_of_mem horder))
  simp only [nameOf, Prod.mk.injEq] at hname
  exact ⟨order', horder', hname.2.trans hclient, x, hx,
    ⟨event, hg.orderEvents hevent, hid.trans hname.1.symm, hexec⟩, hbooked.mono hg⟩

theorem subset_insert {κ ρ : Type} [DecidableEq κ] {key : ρ → κ} {t u : Table key} {r : ρ}
    (h : t.insert r = some u) : t.rows ⊆ u.rows := by
  rw [Table.rows_insert h]
  exact List.subset_append_left _ _

/-- Nor does replacing one take a figure away that the new row has too. -/
theorem map_subset_set {κ ρ β : Type} [DecidableEq κ] {key : ρ → κ} {t : Table key} {r r₀ : ρ}
    {f : ρ → β} (h₀ : r₀ ∈ t) (hk : key r₀ = key r) (hf : f r = f r₀) :
    t.rows.map f ⊆ (t.set r).rows.map f := by
  rw [Table.map_set h₀ hk hf]
  exact List.Subset.refl _

theorem Grows.entry {db db' : Database} {entry : JournalEntry}
    (h : db.journalEntries.insert entry = some db'.journalEntries)
    (horders : db'.orders = db.orders) (hevents : db'.orderEvents = db.orderEvents)
    (hlots : db'.taxLots = db.taxLots) (hcons : db'.lotConsumptions = db.lotConsumptions) :
    Grows db db' := by
  refine ⟨?_, ?_, subset_insert h, ?_, ?_⟩
  · rw [horders]; exact List.Subset.refl _
  · rw [hevents]; exact List.Subset.refl _
  · rw [openingIds, openingIds, hlots]; exact List.Subset.refl _
  · rw [closingIds, closingIds, hcons]; exact List.Subset.refl _

theorem Grows.setOrder {db : Database} {order : Order} (order' : Order) (hmem : order ∈ db.orders)
    (hname : nameOf order' = nameOf order) :
    Grows db { db with orders := db.orders.set order' } := by
  refine { Grows.refl db with orders := ?_ }
  have hid : order.id = order'.id := (congrArg Prod.fst hname).symm
  exact map_subset_set hmem hid hname

/-! ### The fills grow -/

theorem washSaleInvariant_grows (db₀ : Database) : WashSaleInvariant (Grows db₀) := by
  intro db db' consumption lot hdb hc hlot _ hadj
  refine hdb.trans ?_
  obtain ⟨basis, realized, entry, gainLoss, cost, accounts, entries, adjustments, returns, events,
    disclosures, -, -, -, -, -, hentries, -, rfl⟩ := hadj
  refine ⟨List.Subset.refl _, List.Subset.refl _, subset_insert hentries, ?_, ?_⟩
  · exact map_subset_set (f := TaxLot.openingFillExecutionId)
      (r := { lot with adjustedBasis := basis }) hlot rfl rfl
  · exact map_subset_set (f := LotConsumption.closingFillExecutionId)
      (r := { consumption with realizedGainLoss := realized }) hc rfl rfl

theorem BuyPosted.grows {env : Env} {fill : Fill} {lot : TaxLot} {db db' : Database}
    (h : BuyPosted env fill lot db db') : Grows db db' ∧ Booked db' fill.executionId := by
  obtain ⟨cost, entry, units, costs, cash, accounts, entries, settlementDate, obligations, lots, -,
    -, -, hsource, -, -, -, -, -, hexec, -, -, -, -, hentries, -, hlots, rfl⟩ := h
  refine ⟨⟨List.Subset.refl _, List.Subset.refl _, subset_insert hentries,
    List.map_subset _ (subset_insert hlots), List.Subset.refl _⟩, Or.inl ?_, entry, ?_, ?_⟩
  · rw [← hexec]
    exact List.mem_map_of_mem ((Table.mem_insert hlots).mpr (Or.inr rfl))
  · exact (Table.mem_insert hentries).mpr (Or.inr rfl)
  · rw [hsource]; rfl

theorem SellPosted.grows {env : Env} {fill : Fill} {sale : Sale} {db db' : Database}
    (h : SellPosted env fill sale db db') : Grows db db' ∧
      ∃ entry ∈ db'.journalEntries, executionOf entry.sourceEvent = some fill.executionId := by
  obtain ⟨proceeds, entry, units, costs, cash, gainLoss, accounts, entries, settlementDate,
    obligations, -, -, -, hsource, -, -, -, -, -, hentries, -, rfl⟩ := h
  refine ⟨Grows.entry hentries rfl rfl rfl rfl, entry, ?_, ?_⟩
  · exact (Table.mem_insert hentries).mpr (Or.inr rfl)
  · rw [hsource]; rfl

theorem Consumed.grows {env : Env} {fill : Fill} {lot lot' : TaxLot} {c : LotConsumption}
    {sale sale' : Sale} {db db' : Database} (h : Consumed env fill lot lot' c sale sale' db db') :
    Grows db db' := by
  obtain ⟨table, htable, rfl⟩ := h.wrote
  refine ⟨List.Subset.refl _, List.Subset.refl _, List.Subset.refl _, ?_,
    List.map_subset _ (subset_insert htable)⟩
  exact map_subset_set h.mem h.id.symm h.execution

theorem recordBuyFill_grows {env : Env} {clock : MarketClock} {fill : Fill} {db db' : Database}
    {lot : TaxLot} (h : (recordBuyFill env clock fill).run db = .ok (lot, db')) :
    Grows db db' ∧ Booked db' fill.executionId := by
  obtain ⟨mid, hposted, hwash⟩ := recordBuyFill_rule h
  obtain ⟨hgrows, hbooked⟩ := BuyPosted.grows hposted
  have hmid : Grows mid db' := hwash (washSaleInvariant_grows mid) (Grows.refl mid)
  exact ⟨hgrows.trans hmid, hbooked.mono hmid⟩

theorem grows_designate {db : Database} {lot : TaxLot} (hlot : lot ∈ db.taxLots) :
    Grows db { db with taxLots := db.taxLots.set { lot with designation := .specific } } := by
  refine { Grows.refl db with openings := ?_ }
  exact map_subset_set (f := TaxLot.openingFillExecutionId)
    (r := { lot with designation := .specific }) hlot rfl rfl

theorem recordSellFill_grows {env : Env} {clock : MarketClock} {fill : Fill}
    {designatedLotIds : Option (List Uuid)} {db db' : Database} {ids : List Uuid}
    (h : (recordSellFill env clock fill designatedLotIds).run db = .ok (ids, db')) :
    Grows db db' ∧ (0 < fill.quantity.quanta → Booked db' fill.executionId) := by
  obtain ⟨fillDate, lotIds, sale, db1, db2, db3, hselect, -, hloop, -, hposted, hwash⟩ :=
    recordSellFill_rule h
  have hsold : Grows db db2 := soldLots_keeps (I := Grows db)
    (fun hs hlot => hs.trans (grows_designate hlot))
    (fun hs hc => hs.trans (Consumed.grows hc)) hselect hloop (Grows.refl db)
  obtain ⟨hpost, entry, hentry, hx⟩ := SellPosted.grows hposted
  have hwashed : Grows db3 db' := hwash (washSaleInvariant_grows db3) (Grows.refl db3)
  refine ⟨(hsold.trans hpost).trans hwashed, fun hq => ⟨Or.inr ?_, entry,
    hwashed.journalEntries hentry, hx⟩⟩
  -- a positive quantity needs at least one consumption
  obtain ⟨-, ⟨takes, hclosings, hsum⟩, -⟩ := recordSellFill_executions hq.le h
  have hne : takes ≠ [] := by
    rintro rfl
    simp at hsum
    omega
  obtain ⟨n, rest, rfl⟩ := List.exists_cons_of_ne_nil hne
  have hmem : (fill.executionId, n) ∈ closings db' := by
    rw [hclosings]
    simp [pairsOf]
  obtain ⟨c, hc, hpair⟩ := List.mem_map.mp hmem
  exact List.mem_map.mpr ⟨c, hc, congrArg Prod.fst hpair⟩

theorem LotFilled.grows {env : Env} {order : Order} {fill : Fill} {db db' : Database}
    (h : LotFilled env order fill db db') :
    Grows db db' ∧ (0 < fill.quantity.quanta → Booked db' fill.executionId) := by
  rcases h with ⟨-, clock, lot, hrun⟩ | ⟨-, clock, ids, hrun⟩
  · obtain ⟨hgrows, hbooked⟩ := recordBuyFill_grows hrun
    exact ⟨hgrows, fun _ => hbooked⟩
  · exact recordSellFill_grows hrun

/-! ### The steps grow -/

theorem applyNewEvent_grows {env : Env} {order : Order} {event : OrderEvent} {db db' : Database}
    {state : OrderProjectionState} (hmem : order ∈ db.orders)
    (h : (applyNewEvent env order event).run db = .ok (state, db')) : Grows db db' := by
  obtain ⟨events, holds, hinsert, -, -, -, rfl⟩ := applyNewEvent_ok h
  exact { Grows.setOrder (projected order state) hmem rfl with
    orderEvents := subset_insert hinsert }

theorem handle_grows {env : Env} {fault : Option HandleStage} {message : TradeUpdate}
    {db db' : Database} {pushed : Option OrderStatus}
    (h : (handle env fault message).run db = .ok (pushed, db')) : Grows db db' := by
  rcases handle_ok h with ⟨-, rfl⟩ | ⟨eventType, order, state, -, hmem, -, mid, hevent, hlots⟩
  · exact Grows.refl _
  · have hmid := applyNewEvent_grows hmem hevent
    rcases hlots with ⟨-, rfl⟩ | ⟨-, x, q, p, -, -, -, hlots⟩
    · exact hmid
    · exact hmid.trans (LotFilled.grows hlots).1

/-- The log and the records of a state, as the steps that are no delivery leave them. -/
def Quiet (db db' : Database) : Prop := Grows db db' ∧ db'.executionIds = db.executionIds

theorem Quiet.trans {db db' db'' : Database} (h : Quiet db db') (h' : Quiet db' db'') :
    Quiet db db'' := ⟨h.1.trans h'.1, h'.2.trans h.2⟩

theorem scaleLot_quiet {ratio : SplitRatio} {lotId : Uuid} {db db' : Database} {u : Unit}
    (h : (scaleLot ratio lotId).run db = .ok (u, db')) : Quiet db db' := by
  obtain ⟨lot, hlot, lot', -, hscaled, rfl⟩ := scaleLot_ok h
  refine ⟨{ Grows.refl db with openings := ?_ }, rfl⟩
  exact map_subset_set hlot hscaled.id.symm hscaled.execution

theorem splitCustomer_quiet {env : Env} {securityId : Uuid} {ratio : SplitRatio}
    {effectiveDate : Date} {customerId : Uuid} {db db' : Database} {u : Unit}
    (h : (splitCustomer env securityId ratio effectiveDate customerId).run db = .ok (u, db')) :
    Quiet db db' := by
  rcases splitCustomer_ok h with rfl | ⟨mid, priorTotal, added, entry, units, accounts, entries,
    returns, events, disclosures, -, hscale, -, -, -, hentries, rfl⟩
  · exact ⟨Grows.refl _, rfl⟩
  · have hmid : Quiet db mid := keeps_each (I := Quiet db)
      (fun lotId _ s u s' hs hrun => hs.trans (scaleLot_quiet hrun)) db () mid
      ⟨Grows.refl db, rfl⟩ hscale
    exact hmid.trans ⟨Grows.entry hentries rfl rfl rfl rfl, rfl⟩

/-- A step that is no delivery takes no record away and logs no execution. -/
theorem body_quiet {step : Step} {db db' : Database} {u : Unit}
    (hop : ∀ fault message, step.op ≠ .tradeUpdate fault message)
    (h : (body step).run db = .ok (u, db')) : Quiet db db' := by
  obtain ⟨env, op⟩ := step
  cases op with
  | initiateDeposit customerId amount =>
    obtain ⟨r, mid, hrun, hpure⟩ := bind_ok.mp h
    obtain ⟨-, rfl⟩ := pure_ok.mp hpure
    obtain ⟨entry, cash, equity, entries, obligations, -, -, -, hentries, -, rfl, -, -⟩ :=
      initiateDeposit_ok hrun
    exact ⟨Grows.entry hentries rfl rfl rfl rfl, rfl⟩
  | confirmSettlement obligationId =>
    obtain ⟨o, -, -, rfl⟩ := confirmSettlement_ok h
    exact ⟨{ Grows.refl db with }, rfl⟩
  | applyAchReturn obligationId =>
    obtain ⟨o, customerId, entry, receivable, accounts, entries, -, -, -, -, -, hentries, rfl⟩ :=
      applyAchReturn_ok h
    exact ⟨Grows.entry hentries rfl rfl rfl rfl, rfl⟩
  | initiateWithdrawal customerId amount =>
    obtain ⟨r, mid, hrun, hpure⟩ := bind_ok.mp h
    obtain ⟨-, rfl⟩ := pure_ok.mp hpure
    obtain ⟨available, entry, cash, equity, entries, -, -, -, -, -, hentries, rfl⟩ :=
      initiateWithdrawal_ok hrun
    exact ⟨Grows.entry hentries rfl rfl rfl rfl, rfl⟩
  | placeOrder request designatedLotIds =>
    obtain ⟨order, mid, hrun, hpure⟩ := bind_ok.mp h
    obtain ⟨-, rfl⟩ := pure_ok.mp hpure
    obtain ⟨created, mid, hcreate, rfl, rfl⟩ := placeOrder_ok hrun
    obtain ⟨amount, orders, holds, -, rfl, -, hinsert, -, rfl⟩ := createOrder_ok hcreate
    have hcreated : Grows db { db with orders := orders, approvalHolds := holds } :=
      { Grows.refl db with orders := List.map_subset _ (subset_insert hinsert) }
    exact ⟨hcreated.trans (Grows.setOrder _
      ((Table.mem_insert hinsert).mpr (Or.inr rfl)) rfl), rfl⟩
  | approve orderId =>
    obtain ⟨order, mid, hrun, hpure⟩ := bind_ok.mp h
    obtain ⟨-, rfl⟩ := pure_ok.mp hpure
    obtain ⟨before, hmem, -, -, rfl, rfl⟩ := approve_ok hrun
    exact ⟨Grows.setOrder _ hmem rfl, rfl⟩
  | submitToBroker orderId broker =>
    rcases submitToBroker_ok h with rfl | ⟨order, hmem, event, state, -, -, hexec, -, hrun⟩
    · exact ⟨Grows.refl _, rfl⟩
    · refine ⟨applyNewEvent_grows hmem hrun, ?_⟩
      obtain ⟨events, holds, hinsert, -, -, -, rfl⟩ := applyNewEvent_ok hrun
      simp [Database.executionIds, Table.rows_insert hinsert, hexec]
  | tradeUpdate fault message => exact absurd rfl (hop fault message)
  | applySplit securityId ratio effectiveDate =>
    simp only [body, applySplit, bind_ok, require_ok, read_ok] at h
    obtain ⟨_, _, ⟨-, rfl⟩, customers, _, ⟨-, rfl⟩, h⟩ := h
    exact keeps_each (I := Quiet db)
      (fun c _ s u s' hs hrun => hs.trans (splitCustomer_quiet hrun)) db u db'
      ⟨Grows.refl db, rfl⟩ h

/-- **No step takes a record away.** -/
theorem body_grows {step : Step} {db db' : Database} {u : Unit}
    (h : (body step).run db = .ok (u, db')) : Grows db db' := by
  by_cases hop : ∃ fault message, step.op = .tradeUpdate fault message
  · obtain ⟨fault, message, hop⟩ := hop
    simp only [body, hop, bind_ok, pure_ok] at h
    obtain ⟨pushed, _, hrun, -, rfl⟩ := h
    exact handle_grows hrun
  · exact (body_quiet (fun fault message heq => hop ⟨fault, message, heq⟩) h).1

/-! ### The event log and the books -/

/-- Every execution of the event log is booked. -/
def Logged (db : Database) : Prop := ∀ x ∈ db.executionIds, Booked db x

/-- The quantity of a message, where it is one, is at least one quantum. -/
def fillPositive (message : TradeUpdate) : Bool :=
  match (QuantizedDecimal.ofText message.qty : Except Error Units) with
  | .ok quantity => 0 < quantity
  | .error _ => true

theorem pos_of_fillPositive {message : TradeUpdate} (h : fillPositive message) {quantity : Units}
    (hq : QuantizedDecimal.ofText message.qty = .ok quantity) : 0 < quantity.quanta := by
  simpa [fillPositive, hq, QuantizedDecimal.lt_def] using h

/-- **A fill that is handled to the end is recorded.** -/
theorem handle_recorded {env : Env} {fault : Option HandleStage} {message : TradeUpdate}
    {db db' : Database} {pushed : Option OrderStatus}
    (hfill : eventTypeOf message.event = some .fill) (hpos : fillPositive message)
    (h : (handle env fault message).run db = .ok (pushed, db')) : Recorded db' message := by
  rcases handle_ok h with ⟨hnone, -⟩ | ⟨eventType, order, state, htype, hhandled⟩
  · rw [hnone] at hfill; cases hfill
  rw [hfill] at htype
  cases htype
  have hevents := hhandled.orderEvents.2
  obtain ⟨hmem, hfound, mid, hevent, hlots⟩ := hhandled
  rcases hlots with ⟨hne, -⟩ | ⟨-, x, q, p, hx, hq, -, hlots⟩
  · exact absurd rfl hne
  obtain ⟨order', horder', hname⟩ :=
    List.mem_map.mp ((handle_grows h).orders (List.mem_map_of_mem hmem))
  simp only [nameOf, Prod.mk.injEq] at hname
  refine ⟨order', horder', hname.2.trans (clientOrderId_of_found hfound), x, hx,
    ⟨eventOfMessage env order .fill message, (Table.mem_insert hevents).mpr (Or.inr rfl),
      hname.1.symm, ?_⟩, (LotFilled.grows hlots).2 (pos_of_fillPositive hpos hq)⟩
  simp [eventOfMessage, hx]

theorem Recorded.booked {db : Database} {message : TradeUpdate} {x : ExecutionId}
    (h : Recorded db message) (hx : message.executionId = some x) : Booked db x := by
  obtain ⟨order, -, -, y, hy, -, hbooked⟩ := h
  rw [hx] at hy
  cases hy
  exact hbooked

theorem handle_logged {env : Env} {fault : Option HandleStage} {message : TradeUpdate}
    (hpos : eventTypeOf message.event = some .fill → fillPositive message) :
    Keeps Logged (handle env fault message) := by
  intro db pushed db' hdb h x hx
  have hgrows := handle_grows h
  rcases handle_ok h with ⟨-, rfl⟩ | ⟨eventType, order, state, htype, hhandled⟩
  · exact hdb x hx
  · rcases (executionIds_of_insert hhandled.orderEvents.2 x).mp hx with hold | hnew
    · exact (hdb x hold).mono hgrows
    · -- only a fill carries an execution id
      have hfill : eventType = .fill := by
        by_contra hne
        simp [eventOfMessage, hne] at hnew
      subst hfill
      refine (handle_recorded htype (hpos htype) h).booked ?_
      simpa [eventOfMessage] using hnew

/-- A step whose trade update, if it is one, fills at least one quantum. -/
def fillsPositive (step : Step) : Bool :=
  match step.op with
  | .tradeUpdate _ message => fillPositive message
  | _ => true

/-- **The log stays booked** in every step whose fills are positive. -/
theorem body_logged {step : Step} (hpos : fillsPositive step) : Keeps Logged (body step) := by
  intro db u db' hdb h
  by_cases hop : ∃ fault message, step.op = .tradeUpdate fault message
  · obtain ⟨fault, message, hop⟩ := hop
    simp only [fillsPositive, hop] at hpos
    simp only [body, hop, bind_ok, pure_ok] at h
    obtain ⟨pushed, _, hrun, -, rfl⟩ := h
    exact handle_logged (fun _ => hpos) db pushed _ hdb hrun
  · obtain ⟨hgrows, hids⟩ := body_quiet (fun fault message heq => hop ⟨fault, message, heq⟩) h
    intro x hx
    rw [hids] at hx
    exact (hdb x hx).mono hgrows

end Trueup.Orders
