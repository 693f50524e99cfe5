import Trueup.Lots.CorporateActionService

/-! # Holdings: what the lots and the ledger say

The position of a customer in a security is kept twice: by the lots (what remains of them, their
adjusted basis, the gains of their consumptions) and by the postings on the position accounts. This
module defines the sums on both sides and says how each write moves them:

* `BuyPosted.lotUnits`, `BuyPosted.postedUnits`, …: a buy fill before its wash-sale scan;
* `Consumed.lotUnits`, …: one turn of the sell loop;
* `SellPosted.postedUnits`, …: the entry of a sell fill;
* `Adjusted.lotUnits`, …: a wash-sale adjustment. -/

namespace Trueup.Lots

open Trueup.Core Trueup.Models Trueup.Lib Trueup.Lib.Transaction Trueup.Ledger

/-! ### The sums -/

/-- What the postings on the selected accounts add up to. -/
def posted (sel : Account → Prop) [DecidablePred sel] (g : Amount → ℤ)
    (postings : List Posting) : ℤ :=
  (postings.map fun p => if sel p.account then g p.amount else 0).sum

/-- The customer's account in a role, of a security. -/
def IsPosition (role : AccountRole) (customerId securityId : Uuid) (account : Account) : Prop :=
  account.customerId = some customerId ∧ account.role = role ∧
    account.securityId = some securityId

/-- The customer's account in a role. -/
def IsOfRole (role : AccountRole) (customerId : Uuid) (account : Account) : Prop :=
  account.customerId = some customerId ∧ account.role = role

instance (role : AccountRole) (customerId securityId : Uuid) :
    DecidablePred (IsPosition role customerId securityId) :=
  fun account => by unfold IsPosition; infer_instance

instance (role : AccountRole) (customerId : Uuid) : DecidablePred (IsOfRole role customerId) :=
  fun account => by unfold IsOfRole; infer_instance

/-- The `position_units` balance. -/
def postedUnits (db : Database) (customerId securityId : Uuid) : ℤ :=
  posted (IsPosition .positionUnits customerId securityId) Amount.unitQuanta db.postings

/-- The `position_cost` balance. -/
def postedCost (db : Database) (customerId securityId : Uuid) : ℤ :=
  posted (IsPosition .positionCost customerId securityId) Amount.moneyQuanta db.postings

/-- The `realized_gain_loss` balance. -/
def postedGain (db : Database) (customerId : Uuid) : ℤ :=
  posted (IsOfRole .realizedGainLoss customerId) Amount.moneyQuanta db.postings

/-- A figure of the lots of a position. -/
def lotShare (g : TaxLot → ℤ) (customerId securityId : Uuid) (lot : TaxLot) : ℤ :=
  if lot.customerId = customerId ∧ lot.securityId = securityId then g lot else 0

/-- The sum of `quantity_remaining` over the lots of a position. -/
def lotUnits (db : Database) (customerId securityId : Uuid) : ℤ :=
  db.taxLots.total (lotShare (·.quantityRemaining.quanta) customerId securityId)

/-- The sum of `adjusted_basis` over the lots of a position. -/
def lotBasis (db : Database) (customerId securityId : Uuid) : ℤ :=
  db.taxLots.total (lotShare (·.adjustedBasis.quanta) customerId securityId)

/-- The gain of a consumption, if its lot is the customer's. -/
def gainShare (lots : Table TaxLot.id) (customerId : Uuid) (c : LotConsumption) : ℤ :=
  if (lots.find c.taxLotId).map (·.customerId) = some customerId then c.realizedGainLoss.quanta
  else 0

/-- The sum of `realized_gain_loss` over the consumptions of the customer's lots. -/
def realizedGains (db : Database) (customerId : Uuid) : ℤ :=
  db.lotConsumptions.total (gainShare db.taxLots customerId)

/-- Every consumption is of a lot: the foreign key of `tax_lot_id`. -/
def ConsumptionsOfLots (db : Database) : Prop :=
  ∀ c ∈ db.lotConsumptions, db.taxLots.Has c.taxLotId

/-! ### Reading the sums -/

@[simp] theorem posted_nil (sel : Account → Prop) [DecidablePred sel] (g : Amount → ℤ) :
    posted sel g [] = 0 := rfl

@[simp] theorem posted_cons (sel : Account → Prop) [DecidablePred sel] (g : Amount → ℤ)
    (p : Posting) (ps : List Posting) :
    posted sel g (p :: ps) = (if sel p.account then g p.amount else 0) + posted sel g ps := by
  simp [posted]

@[simp] theorem posted_append (sel : Account → Prop) [DecidablePred sel] (g : Amount → ℤ)
    (ps qs : List Posting) : posted sel g (ps ++ qs) = posted sel g ps + posted sel g qs := by
  simp [posted]

section Accounts
variable {account : Account} {customerId : Uuid} {role : AccountRole}

theorem isPosition_iff {securityId : Uuid}
    (h : IsAccountOf account customerId role (some securityId)) (role' : AccountRole)
    (c s : Uuid) :
    IsPosition role' c s account ↔ role = role' ∧ customerId = c ∧ securityId = s := by
  have hs : account.securityId = some securityId := h.security.resolve_left (by simp)
  unfold IsPosition
  rw [h.customer, h.role, hs]
  simp only [Option.some.injEq]
  tauto

theorem not_isPosition {securityId : Option Uuid}
    (h : IsAccountOf account customerId role securityId) {r : AccountRole}
    (hr : role ≠ r) (c s : Uuid) : ¬ IsPosition r c s account := by
  rintro ⟨-, h', -⟩
  exact hr (h.role.symm.trans h')

theorem isOfRole_iff {securityId : Option Uuid}
    (h : IsAccountOf account customerId role securityId) (role' : AccountRole) (c : Uuid) :
    IsOfRole role' c account ↔ role = role' ∧ customerId = c := by
  unfold IsOfRole
  rw [h.customer, h.role]
  simp only [Option.some.injEq]
  tauto

end Accounts

theorem gainShare_of_find {lots lots' : Table TaxLot.id} {customerId : Uuid} {c : LotConsumption}
    (h : (lots'.find c.taxLotId).map (·.customerId) =
      (lots.find c.taxLotId).map (·.customerId)) :
    gainShare lots' customerId c = gainShare lots customerId c := by
  unfold gainShare; rw [h]

theorem owner_set {lots : Table TaxLot.id} {lot l : TaxLot} (hmem : lot ∈ lots)
    (hid : l.id = lot.id) (hcust : l.customerId = lot.customerId) (lotId : Uuid) :
    ((lots.set l).find lotId).map (·.customerId) = (lots.find lotId).map (·.customerId) := by
  rw [Table.find_set (by rw [hid]; exact Table.has_of_mem hmem)]
  split_ifs with h
  · have : lots.find lotId = some lot := Table.find_eq_some.mpr ⟨hmem, hid.symm.trans h⟩
    rw [this]
    simp [hcust]
  · rfl

theorem owner_insert {lots lots' : Table TaxLot.id} {lot : TaxLot}
    (h : lots.insert lot = some lots') {lotId : Uuid} (hhas : lots.Has lotId) :
    (lots'.find lotId).map (·.customerId) = (lots.find lotId).map (·.customerId) := by
  rw [Table.find_insert_of_has h hhas]

theorem lotShare_set {lots : Table TaxLot.id} {lot l : TaxLot} (hmem : lot ∈ lots)
    (hid : l.id = lot.id) (hcust : l.customerId = lot.customerId)
    (hsec : l.securityId = lot.securityId) (g : TaxLot → ℤ) (c s : Uuid) :
    (lots.set l).total (lotShare g c s) = lots.total (lotShare g c s) +
      (if lot.customerId = c ∧ lot.securityId = s then g l - g lot else 0) := by
  rw [Table.total_set hmem hid.symm]
  unfold lotShare
  rw [hcust, hsec]
  split_ifs <;> ring

/-! ### Buy fills -/

section Buy
variable {env : Env} {fill : Fill} {lot : TaxLot} {db db' : Database}
  (h : BuyPosted env fill lot db db') (c s : Uuid)
include h

theorem BuyPosted.postedUnits : postedUnits db' c s = postedUnits db c s +
    (if fill.customerId = c ∧ fill.securityId = s then fill.quantity.quanta else 0) := by
  obtain ⟨cost, entry, units, costs, cash, accounts, entries, settlementDate, obligations, lots, -,
    -, -, -, hunits, hcosts, hcash, -, -, -, -, -, -, -, -, -, -, rfl⟩ := h
  simp [Lots.postedUnits, isPosition_iff hunits, isPosition_iff hcosts,
    not_isPosition hcash, Amount.unitQuanta]

theorem BuyPosted.lotUnits : lotUnits db' c s = lotUnits db c s +
    (if fill.customerId = c ∧ fill.securityId = s then fill.quantity.quanta else 0) := by
  obtain ⟨cost, entry, units, costs, cash, accounts, entries, settlementDate, obligations, lots, -,
    -, -, -, -, -, -, hcust, hsec, -, -, hrem, -, -, -, -, hlots, rfl⟩ := h
  simp only [Lots.lotUnits, Table.total_insert hlots]
  simp [lotShare, hcust, hsec, hrem]

theorem BuyPosted.cost : ∃ cost : Money, cost.quanta = notional fill.price fill.quantity ∧
    postedCost db' c s = postedCost db c s +
      (if fill.customerId = c ∧ fill.securityId = s then cost.quanta else 0) ∧
    lotBasis db' c s = lotBasis db c s +
      (if fill.customerId = c ∧ fill.securityId = s then cost.quanta else 0) := by
  obtain ⟨cost, entry, units, costs, cash, accounts, entries, settlementDate, obligations, lots,
    hcost, -, -, -, hunits, hcosts, hcash, hcust, hsec, -, -, -, hbasis, -, -, -, hlots, rfl⟩ := h
  refine ⟨cost, hcost, ?_, ?_⟩
  · simp [postedCost, isPosition_iff hunits, isPosition_iff hcosts, not_isPosition hcash,
      Amount.moneyQuanta]
  · simp only [lotBasis, Table.total_insert hlots]
    simp [lotShare, hcust, hsec, hbasis]

theorem BuyPosted.postedGain : postedGain db' c = postedGain db c := by
  obtain ⟨cost, entry, units, costs, cash, accounts, entries, settlementDate, obligations, lots, -,
    -, -, -, hunits, hcosts, hcash, -, -, -, -, -, -, -, -, -, -, rfl⟩ := h
  simp [Lots.postedGain, isOfRole_iff hunits, isOfRole_iff hcosts, isOfRole_iff hcash]

theorem BuyPosted.realizedGains (hfk : ConsumptionsOfLots db) :
    realizedGains db' c = realizedGains db c ∧ ConsumptionsOfLots db' := by
  obtain ⟨cost, entry, units, costs, cash, accounts, entries, settlementDate, obligations, lots, -,
    -, -, -, -, -, -, -, -, -, -, -, -, -, -, -, hlots, rfl⟩ := h
  refine ⟨Table.total_congr fun x hx => gainShare_of_find ?_, fun x hx => ?_⟩
  · exact owner_insert hlots (hfk x hx)
  · exact (Table.has_insert hlots _).mpr (Or.inl (hfk x hx))

end Buy

/-! ### Wash-sale adjustments -/

section Adjust
variable {consumption : LotConsumption} {lot : TaxLot} {db db' : Database}
  (h : Adjusted consumption lot db db') (hlot : lot ∈ db.taxLots) (c s : Uuid)
include h

theorem Adjusted.postedUnits : postedUnits db' c s = postedUnits db c s := by
  obtain ⟨basis, realized, entry, gainLoss, cost, accounts, entries, adjustments, returns, events,
    disclosures, -, -, hgain, hcost, -, -, -, rfl⟩ := h
  simp [Lots.postedUnits, not_isPosition hgain, isPosition_iff hcost]

include hlot

theorem Adjusted.lotUnits : lotUnits db' c s = lotUnits db c s := by
  obtain ⟨basis, realized, entry, gainLoss, cost, accounts, entries, adjustments, returns, events,
    disclosures, -, -, -, -, -, -, -, rfl⟩ := h
  simp only [Lots.lotUnits]
  rw [lotShare_set (l := { lot with adjustedBasis := basis }) hlot rfl rfl rfl]
  simp

theorem Adjusted.cost : postedCost db' c s = postedCost db c s +
      (if lot.customerId = c ∧ lot.securityId = s then (disallowedLoss consumption lot).quanta
        else 0) ∧
    lotBasis db' c s = lotBasis db c s +
      (if lot.customerId = c ∧ lot.securityId = s then (disallowedLoss consumption lot).quanta
        else 0) := by
  obtain ⟨basis, realized, entry, gainLoss, cost, accounts, entries, adjustments, returns, events,
    disclosures, hbasis, -, hgain, hcost, -, -, -, rfl⟩ := h
  constructor
  · simp [postedCost, not_isPosition hgain, isPosition_iff hcost, Amount.moneyQuanta]
  · simp only [lotBasis]
    rw [lotShare_set (l := { lot with adjustedBasis := basis }) hlot rfl rfl rfl, hbasis]
    simp

theorem Adjusted.gain (hc : consumption ∈ db.lotConsumptions)
    (howned : OwnedBy db consumption.id lot.customerId) :
    postedGain db' c = postedGain db c -
      (if lot.customerId = c then (disallowedLoss consumption lot).quanta else 0) ∧
    realizedGains db' c = realizedGains db c +
      (if lot.customerId = c then (disallowedLoss consumption lot).quanta else 0) := by
  obtain ⟨basis, realized, entry, gainLoss, cost, accounts, entries, adjustments, returns, events,
    disclosures, -, hrealized, hgain, hcost, -, -, -, rfl⟩ := h
  constructor
  · simp only [Lots.postedGain, posted_append, posted_cons, posted_nil, isOfRole_iff hgain,
      isOfRole_iff hcost, Amount.moneyQuanta, true_and, reduceCtorEq, false_and, if_false]
    split_ifs <;> simp
    ring
  · -- the consumption's own lot is the customer's, and keeps its owner
    obtain ⟨c0, hc0, hid0, own, hown, hownid, howncust⟩ := howned
    obtain rfl := Table.eq_of_key_eq hc0 hc hid0
    have hfind : db.taxLots.find c0.taxLotId = some own :=
      Table.find_eq_some.mpr ⟨hown, hownid⟩
    have hshare : ∀ x : LotConsumption,
        gainShare (db.taxLots.set { lot with adjustedBasis := basis }) c x =
          gainShare db.taxLots c x := fun x =>
      gainShare_of_find
        (owner_set (l := { lot with adjustedBasis := basis }) hlot rfl rfl _)
    simp only [Lots.realizedGains, funext hshare]
    rw [Table.total_set (r := { c0 with realizedGainLoss := realized }) hc rfl]
    simp only [gainShare, hfind, Option.map_some, Option.some.injEq, howncust, hrealized]
    split_ifs <;> ring

omit hlot in
theorem Adjusted.consumptionsOfLots (hc : consumption ∈ db.lotConsumptions)
    (hfk : ConsumptionsOfLots db) : ConsumptionsOfLots db' := by
  obtain ⟨basis, realized, entry, gainLoss, cost, accounts, entries, adjustments, returns, events,
    disclosures, -, -, -, -, -, -, -, rfl⟩ := h
  intro x hx
  rw [Table.has_set]
  rcases Table.mem_set.mp hx with ⟨hx, -⟩ | ⟨rfl, -⟩
  · exact hfk x hx
  · exact hfk consumption hc

end Adjust

/-! ### One turn of the sell loop -/

section Consume
variable {env : Env} {fill : Fill} {lot lot' : TaxLot} {x : LotConsumption} {sale sale' : Sale}
  {db db' : Database} (h : Consumed env fill lot lot' x sale sale' db db') (c s : Uuid)
include h

theorem Consumed.postings : db'.postings = db.postings := by
  obtain ⟨table, -, rfl⟩ := h.wrote
  rfl

theorem Consumed.lotUnits : lotUnits db' c s = lotUnits db c s -
    (if lot.customerId = c ∧ lot.securityId = s then x.quantityConsumed.quanta else 0) := by
  obtain ⟨table, -, rfl⟩ := h.wrote
  simp only [Lots.lotUnits]
  rw [lotShare_set h.mem h.id h.customerId h.securityId, h.remaining]
  split_ifs <;> ring

theorem Consumed.lotBasis : lotBasis db' c s = lotBasis db c s -
    (if lot.customerId = c ∧ lot.securityId = s then
      lot.adjustedBasis.quanta - lot'.adjustedBasis.quanta else 0) := by
  obtain ⟨table, -, rfl⟩ := h.wrote
  simp only [Lots.lotBasis]
  rw [lotShare_set h.mem h.id h.customerId h.securityId]
  split_ifs <;> ring

theorem Consumed.realizedGains : realizedGains db' c = realizedGains db c +
    (if lot.customerId = c then x.realizedGainLoss.quanta else 0) := by
  obtain ⟨table, htable, rfl⟩ := h.wrote
  have hfind : db.taxLots.find x.taxLotId = some lot :=
    Table.find_eq_some.mpr ⟨h.mem, h.taxLotId.symm⟩
  have hshare : ∀ y : LotConsumption, gainShare (db.taxLots.set lot') c y =
      gainShare db.taxLots c y := fun y =>
    gainShare_of_find (owner_set h.mem h.id h.customerId _)
  simp only [Lots.realizedGains, funext hshare, Table.total_insert htable]
  simp [gainShare, hfind]

theorem Consumed.consumptionsOfLots (hfk : ConsumptionsOfLots db) : ConsumptionsOfLots db' := by
  obtain ⟨table, htable, rfl⟩ := h.wrote
  intro y hy
  rw [Table.has_set]
  rcases (Table.mem_insert htable).mp hy with hy | rfl
  · exact hfk y hy
  · rw [h.taxLotId]
    exact Table.has_of_mem h.mem

end Consume

/-! ### The entry of a sell fill -/

section Sell
variable {env : Env} {fill : Fill} {sale : Sale} {db db' : Database}
  (h : SellPosted env fill sale db db') (c s : Uuid)
include h

theorem SellPosted.lots : db'.taxLots = db.taxLots ∧ db'.lotConsumptions = db.lotConsumptions := by
  obtain ⟨proceeds, entry, units, costs, cash, gainLoss, accounts, entries, settlementDate,
    obligations, -, -, -, -, -, -, -, -, -, -, -, rfl⟩ := h
  exact ⟨rfl, rfl⟩

theorem SellPosted.postedUnits : postedUnits db' c s = postedUnits db c s -
    (if fill.customerId = c ∧ fill.securityId = s then fill.quantity.quanta else 0) := by
  obtain ⟨proceeds, entry, units, costs, cash, gainLoss, accounts, entries, settlementDate,
    obligations, -, -, -, -, hunits, hcosts, hcash, hgain, -, -, -, rfl⟩ := h
  simp only [Lots.postedUnits, posted_append, posted_cons, posted_nil, isPosition_iff hunits,
    isPosition_iff hcosts, not_isPosition hcash (r := .positionUnits) (by decide),
    not_isPosition hgain (r := .positionUnits) (by decide), Amount.unitQuanta, true_and,
    reduceCtorEq, false_and, if_false, add_zero]
  split_ifs <;> simp
  ring

theorem SellPosted.postedCost : postedCost db' c s = postedCost db c s -
    (if fill.customerId = c ∧ fill.securityId = s then sale.consumedBasisTotal.quanta else 0) := by
  obtain ⟨proceeds, entry, units, costs, cash, gainLoss, accounts, entries, settlementDate,
    obligations, -, -, -, -, hunits, hcosts, hcash, hgain, -, -, -, rfl⟩ := h
  simp only [Lots.postedCost, posted_append, posted_cons, posted_nil, isPosition_iff hunits,
    isPosition_iff hcosts, not_isPosition hcash (r := .positionCost) (by decide),
    not_isPosition hgain (r := .positionCost) (by decide), Amount.moneyQuanta, true_and,
    reduceCtorEq, false_and, if_false, add_zero, zero_add]
  split_ifs <;> simp
  ring

theorem SellPosted.postedGain : postedGain db' c = postedGain db c -
    (if fill.customerId = c then sale.realizedTotal.quanta else 0) := by
  obtain ⟨proceeds, entry, units, costs, cash, gainLoss, accounts, entries, settlementDate,
    obligations, -, -, -, -, hunits, hcosts, hcash, hgain, -, -, -, rfl⟩ := h
  simp only [Lots.postedGain, posted_append, posted_cons, posted_nil, isOfRole_iff hunits,
    isOfRole_iff hcosts, isOfRole_iff hcash, isOfRole_iff hgain, Amount.moneyQuanta, true_and,
    reduceCtorEq, false_and, if_false, add_zero, zero_add]
  split_ifs <;> simp
  ring

end Sell

end Trueup.Lots
