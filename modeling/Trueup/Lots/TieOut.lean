import Trueup.Lots.Holdings
import Trueup.Models.OpenedAccount

/-! # Runs of the lot services

Fills and splits in any order, from a state in which no position has been opened.

* `cost_and_gain_tie_out`: the cost of every position is the basis of its lots, and the realized
  gains of a customer are those of the consumptions, in every state a run reaches.
* `units_agree_of_run`: the units of every position are those of its lots as long as no sell fill
  has a negative quantity and the roundings of every split add up (`SplitsEvenly`). A split rounds
  each lot on its own and the posting once. -/

namespace Trueup.Lots

open Trueup.Core Trueup.Models Trueup.Lib Trueup.Lib.Transaction Trueup.Ledger

/-! ### Sell fills, up to the posting -/

/-- What the selection and the loop of a sell fill did to the lots so far. -/
structure LotsSold (fill : Fill) (sale : Sale) (db db' : Database) : Prop where
  postings : db'.postings = db.postings
  units : ∀ c s, lotUnits db' c s = lotUnits db c s -
    (if fill.customerId = c ∧ fill.securityId = s then
      fill.quantity.quanta - sale.remainingToSell.quanta else 0)
  basis : ∀ c s, lotBasis db' c s = lotBasis db c s -
    (if fill.customerId = c ∧ fill.securityId = s then sale.consumedBasisTotal.quanta else 0)
  gains : ∀ c, realizedGains db' c = realizedGains db c +
    (if fill.customerId = c then sale.realizedTotal.quanta else 0)
  consumptions : ConsumptionsOfLots db → ConsumptionsOfLots db'
  remaining : 0 ≤ fill.quantity.quanta → 0 ≤ sale.remainingToSell.quanta

theorem LotsSold.start (fill : Fill) (db : Database) :
    LotsSold fill (.start fill.quantity) db db where
  postings := rfl
  units c s := by simp [Sale.start]
  basis c s := by simp [Sale.start]
  gains c := by simp [Sale.start]
  consumptions h := h
  remaining h := h

/-- Marking a lot moves no sum. -/
theorem LotsSold.designate {fill : Fill} {sale : Sale} {db₀ db : Database} {lot : TaxLot}
    (h : LotsSold fill sale db₀ db) (hlot : lot ∈ db.taxLots) :
    LotsSold fill sale db₀
      { db with taxLots := db.taxLots.set { lot with designation := .specific } } := by
  have hshare := fun g c s => lotShare_set (l := { lot with designation := .specific }) hlot
    rfl rfl rfl g c s
  refine ⟨h.postings, fun c s => ?_, fun c s => ?_, fun c => ?_, fun hfk x hx => ?_, h.remaining⟩
  · rw [← h.units c s]
    simp only [lotUnits]
    rw [hshare]
    simp
  · rw [← h.basis c s]
    simp only [lotBasis]
    rw [hshare]
    simp
  · rw [← h.gains c]
    exact Table.total_congr fun x _ => gainShare_of_find
      (owner_set (l := { lot with designation := .specific }) hlot rfl rfl _)
  · rw [Table.has_set]
    exact h.consumptions hfk x hx

/-- One turn of the loop moves the sums and the accumulators alike. -/
theorem LotsSold.consume {env : Env} {fill : Fill} {lot lot' : TaxLot} {x : LotConsumption}
    {sale sale' : Sale} {db₀ db db' : Database} (h : LotsSold fill sale db₀ db)
    (hc : Consumed env fill lot lot' x sale sale' db db')
    (hown : lot.customerId = fill.customerId ∧ lot.securityId = fill.securityId) :
    LotsSold fill sale' db₀ db' := by
  refine ⟨hc.postings.trans h.postings, fun c s => ?_, fun c s => ?_, fun c => ?_,
    fun hfk => hc.consumptionsOfLots (h.consumptions hfk), fun hq => ?_⟩
  · rw [hc.lotUnits c s, h.units c s, hown.1, hown.2, hc.remainingToSell]
    split_ifs <;> ring
  · rw [hc.lotBasis c s, h.basis c s, hown.1, hown.2, hc.consumedBasisTotal]
    split_ifs <;> ring
  · rw [hc.realizedGains c, h.gains c, hown.1, hc.realizedTotal]
    split_ifs <;> ring
  · have hle := hc.take_eq ▸ min_le_right lot.quantityRemaining.quanta sale.remainingToSell.quanta
    rw [hc.remainingToSell]
    omega

/-- **A sell fill**: the lots were sold, the entry posted, and every adjustment's invariant of that
state holds in the end. -/
theorem recordSellFill_sold {env : Env} {clock : MarketClock} {fill : Fill}
    {designatedLotIds : Option (List Uuid)} {db db' : Database} {consumptions : List Uuid}
    (h : (recordSellFill env clock fill designatedLotIds).run db = .ok (consumptions, db')) :
    ∃ sale db2 db3, LotsSold fill sale db db2 ∧ sale.remainingToSell.quanta ≤ 0 ∧
      SellPosted env fill sale db2 db3 ∧
      ∀ {I : Database → Prop}, WashSaleInvariant I → I db3 → I db' := by
  obtain ⟨fillDate, lotIds, sale, db1, db2, db3, hselect, howned, hloop, hdone, hposted, hwash⟩ :=
    recordSellFill_rule h
  have hselected : LotsSold fill (.start fill.quantity) db db1 :=
    selectLotsToConsume_keeps (I := LotsSold fill (.start fill.quantity) db)
      (fun hs hlot => hs.designate hlot) designatedLotIds db lotIds db1 (.start fill db) hselect
  let P : Sale → Database → Prop := fun sale db' => LotsSold fill sale db db' ∧
    ∀ id ∈ lotIds, IsPositionLot db' fill.customerId fill.securityId id
  have hP : P sale db2 := by
    refine consumeLots_rule (P := P) ?_ ⟨hselected, howned⟩ hloop
    intro lot lot' c sale sale' db db' hid ⟨hs, hpos⟩ hc
    exact ⟨hs.consume hc (hc.ownLot (hpos _ hid)), fun i hi => hc.isPositionLot (hpos i hi)⟩
  exact ⟨sale, db2, db3, hP.1, hdone, hposted, hwash⟩

/-! ### Runs -/

/-- A call of the lot services. -/
inductive LotOp
  | buyFill (clock : MarketClock) (fill : Fill)
  | sellFill (clock : MarketClock) (fill : Fill) (designatedLotIds : Option (List Uuid))
  | split (securityId : Uuid) (ratio : SplitRatio) (effectiveDate : Date)

/-- A call with what it reads from outside the database. -/
structure LotStep where
  env : Env
  op : LotOp

/-- The unit of work of a call. -/
def lotBody (step : LotStep) : Tx Unit :=
  match step.op with
  | .buyFill clock fill => do
    let _ ← recordBuyFill step.env clock fill
  | .sellFill clock fill designatedLotIds => do
    let _ ← recordSellFill step.env clock fill designatedLotIds
  | .split securityId ratio effectiveDate => applySplit step.env securityId ratio effectiveDate

/-- No position has been opened: no lot, no consumption and no posting on a position account. The
rest of the database is arbitrary. -/
structure Unopened (db : Database) : Prop where
  taxLots : db.taxLots = ∅
  lotConsumptions : db.lotConsumptions = ∅
  postings : ∀ p ∈ db.postings, p.account.role ∉
    [AccountRole.positionUnits, .positionCost, .realizedGainLoss]

theorem posted_eq_zero {sel : Account → Prop} [DecidablePred sel] {g : Amount → ℤ}
    {postings : List Posting} (h : ∀ p ∈ postings, ¬ sel p.account) :
    posted sel g postings = 0 := by
  refine List.sum_eq_zero fun x hx => ?_
  obtain ⟨p, hp, rfl⟩ := List.mem_map.mp hx
  exact if_neg (h p hp)

/-! ### Cost and gains -/

/-- The ledger and the lots carry the same cost and the same gains. -/
structure TiedOut (db : Database) : Prop where
  consumptions : ConsumptionsOfLots db
  cost : ∀ c s, postedCost db c s = lotBasis db c s
  gain : ∀ c, postedGain db c = -realizedGains db c

theorem Unopened.tiedOut {db : Database} (h : Unopened db) : TiedOut db where
  consumptions := by
    intro c hc
    rw [h.lotConsumptions] at hc
    cases hc
  cost c s := by
    rw [postedCost, lotBasis, h.taxLots, posted_eq_zero]
    · rfl
    · rintro p hp ⟨-, hrole, -⟩
      exact h.postings p hp (by simp [hrole])
  gain c := by
    rw [postedGain, realizedGains, h.lotConsumptions, posted_eq_zero]
    · rfl
    · rintro p hp ⟨-, hrole⟩
      exact h.postings p hp (by simp [hrole])

/-- An adjustment moves the disallowed loss on both sides. -/
theorem tiedOut_washSale : WashSaleInvariant TiedOut := by
  intro db db' consumption lot h hc hlot howned hadj
  refine ⟨hadj.consumptionsOfLots hc h.consumptions, fun c s => ?_, fun c => ?_⟩
  · obtain ⟨hcost, hbasis⟩ := hadj.cost hlot c s
    rw [hcost, hbasis, h.cost c s]
  · obtain ⟨hgain, hrealized⟩ := hadj.gain hlot c hc howned
    rw [hgain, hrealized, h.gain c]
    ring

theorem recordBuyFill_tiedOut (env : Env) (clock : MarketClock) (fill : Fill) :
    Keeps TiedOut (recordBuyFill env clock fill) := by
  intro db lot db' hdb h
  obtain ⟨mid, hposted, hwash⟩ := recordBuyFill_rule h
  obtain ⟨-, hfk⟩ := hposted.realizedGains (0 : Uuid) hdb.consumptions
  refine hwash tiedOut_washSale ⟨hfk, fun c s => ?_, fun c => ?_⟩
  · obtain ⟨cost, -, hcost, hbasis⟩ := hposted.cost c s
    rw [hcost, hbasis, hdb.cost c s]
  · rw [hposted.postedGain c, (hposted.realizedGains c hdb.consumptions).1, hdb.gain c]

theorem recordSellFill_tiedOut (env : Env) (clock : MarketClock) (fill : Fill)
    (designatedLotIds : Option (List Uuid)) :
    Keeps TiedOut (recordSellFill env clock fill designatedLotIds) := by
  intro db ids db' hdb h
  obtain ⟨sale, db2, db3, hsold, -, hposted, hwash⟩ := recordSellFill_sold h
  obtain ⟨hlots, hcons⟩ := hposted.lots
  refine hwash tiedOut_washSale ⟨?_, fun c s => ?_, fun c => ?_⟩
  · intro x hx
    rw [hcons] at hx
    rw [hlots]
    exact hsold.consumptions hdb.consumptions x hx
  · rw [hposted.postedCost c s]
    simp only [lotBasis, postedCost, hlots, hsold.postings]
    have hbasis := hsold.basis c s
    have hcost := hdb.cost c s
    simp only [lotBasis, postedCost] at hbasis hcost
    rw [hbasis, hcost]
  · rw [hposted.postedGain c]
    simp only [realizedGains, postedGain, hlots, hcons, hsold.postings]
    have hgains := hsold.gains c
    have hgain := hdb.gain c
    simp only [realizedGains, postedGain] at hgains hgain
    rw [hgains, hgain]
    ring

theorem scaleLot_tiedOut (ratio : SplitRatio) (lotId : Uuid) :
    Keeps TiedOut (scaleLot ratio lotId) := by
  intro db u db' hdb h
  obtain ⟨lot, hlot, lot', -, hscaled, rfl⟩ := scaleLot_ok h
  refine ⟨fun x hx => ?_, fun c s => ?_, fun c => ?_⟩
  · rw [Table.has_set]
    exact hdb.consumptions x hx
  · show postedCost db c s = _
    simp only [lotBasis]
    rw [lotShare_set hlot hscaled.id hscaled.customerId hscaled.securityId, hscaled.basis]
    simpa [lotBasis] using hdb.cost c s
  · show postedGain db c = _
    rw [hdb.gain c]
    refine congrArg _ (Table.total_congr fun x _ => gainShare_of_find ?_)
    exact (owner_set hlot hscaled.id hscaled.customerId _).symm

theorem splitCustomer_tiedOut (env : Env) (securityId : Uuid) (ratio : SplitRatio)
    (effectiveDate : Date) (customerId : Uuid) :
    Keeps TiedOut (splitCustomer env securityId ratio effectiveDate customerId) := by
  intro db u db' hdb h
  rcases splitCustomer_ok h with rfl | ⟨mid, priorTotal, added, entry, units, accounts, entries,
    returns, events, disclosures, -, hscale, -, -, hunits, -, rfl⟩
  · exact hdb
  · have hmid : TiedOut mid :=
      keeps_each (fun lotId _ => scaleLot_tiedOut ratio lotId) db () mid hdb hscale
    -- the entry has a units leg only
    refine ⟨hmid.consumptions, fun c s => ?_, fun c => ?_⟩
    · rw [postedCost, posted_append, posted_cons, if_neg (not_isPosition hunits (by decide) c s)]
      simpa [postedCost, lotBasis] using hmid.cost c s
    · rw [postedGain, posted_append, posted_cons, if_neg (by simp [isOfRole_iff hunits])]
      simpa [postedGain, realizedGains] using hmid.gain c

theorem lotBody_tiedOut (step : LotStep) : Keeps TiedOut (lotBody step) := by
  obtain ⟨env, op⟩ := step
  cases op with
  | buyFill clock fill =>
    exact keeps_bind (recordBuyFill_tiedOut env clock fill) fun _ => keeps_pure _
  | sellFill clock fill designatedLotIds =>
    exact keeps_bind (recordSellFill_tiedOut env clock fill designatedLotIds) fun _ => keeps_pure _
  | split securityId ratio effectiveDate =>
    exact keeps_bind (keeps_require _ _) fun _ => keeps_bind (keeps_read _) fun _ =>
      keeps_each fun c _ => splitCustomer_tiedOut env securityId ratio effectiveDate c

/-- **The cost and the gains tie out in every run**: the `position_cost` balance of a position is
the adjusted basis of its lots, open and exhausted, and the `realized_gain_loss` balance of a
customer is minus the gains of the customer's consumptions. -/
theorem cost_and_gain_tie_out (steps : List LotStep) {db : Database} (h : Unopened db) :
    (∀ customerId securityId, postedCost (runs lotBody steps db) customerId securityId =
      lotBasis (runs lotBody steps db) customerId securityId) ∧
    ∀ customerId, postedGain (runs lotBody steps db) customerId =
      -realizedGains (runs lotBody steps db) customerId := by
  have hrun := runs_keeps steps (fun step _ => lotBody_tiedOut step) h.tiedOut
  exact ⟨hrun.cost, hrun.gain⟩

/-- A fill of customer 1 in security 7. -/
def fillAt (t : Instant) (executionId : ExecutionId) (quantity : Units) (price : Price) : Fill :=
  ⟨1, 7, executionId, quantity, price, ⟨t, true⟩⟩

/-- A loss sale, a buy that replaces what was sold, and a split. -/
def washSaleRun : List LotStep := [
  ⟨envAt 10 1, .buyFill openedClock (fillAt 10 "a" (shares 10) (dollarsPerShare 100))⟩,
  ⟨envAt 20 2, .sellFill openedClock (fillAt 20 "b" (shares 5) (dollarsPerShare 90)) none⟩,
  ⟨envAt 30 3, .buyFill openedClock (fillAt 30 "c" (shares 5) (dollarsPerShare 95))⟩,
  ⟨envAt 40 4, .split 7 (.int 2) 0⟩]

theorem unopened_openedAccount (customerId : Uuid) : Unopened (openedAccount customerId) :=
  ⟨rfl, rfl, by simp [openedAccount]⟩

theorem cost_and_gain_tie_out_wash_sale :
    lotBasis (runs lotBody washSaleRun (openedAccount 1)) 1 7 = 10250000 ∧
      postedCost (runs lotBody washSaleRun (openedAccount 1)) 1 7 = 10250000 := by
  have hbasis : lotBasis (runs lotBody washSaleRun (openedAccount 1)) 1 7 = 10250000 := by
    decide +kernel
  exact ⟨hbasis,
    ((cost_and_gain_tie_out washSaleRun (unopened_openedAccount 1)).1 1 7).trans hbasis⟩

/-! ### Units -/

/-- The ledger and the lots carry the same units. -/
def UnitsAgree (db : Database) : Prop := ∀ c s, lotUnits db c s = postedUnits db c s

theorem Unopened.unitsAgree {db : Database} (h : Unopened db) : UnitsAgree db := by
  intro c s
  rw [postedUnits, lotUnits, h.taxLots, posted_eq_zero]
  · rfl
  · rintro p hp ⟨-, hrole, -⟩
    exact h.postings p hp (by simp [hrole])

theorem unitsAgree_washSale : WashSaleInvariant UnitsAgree := by
  intro db db' consumption lot h _ hlot _ hadj c s
  rw [hadj.lotUnits hlot c s, hadj.postedUnits c s, h c s]

theorem recordBuyFill_unitsAgree (env : Env) (clock : MarketClock) (fill : Fill) :
    Keeps UnitsAgree (recordBuyFill env clock fill) := by
  intro db lot db' hdb h
  obtain ⟨mid, hposted, hwash⟩ := recordBuyFill_rule h
  refine hwash unitsAgree_washSale fun c s => ?_
  rw [hposted.lotUnits c s, hposted.postedUnits c s, hdb c s]

/-- A sell fill posts its quantity; the lots give what the loop took. -/
theorem recordSellFill_unitsAgree {env : Env} {clock : MarketClock} {fill : Fill}
    {designatedLotIds : Option (List Uuid)} {db db' : Database} {ids : List Uuid}
    (hq : 0 ≤ fill.quantity.quanta) (hdb : UnitsAgree db)
    (h : (recordSellFill env clock fill designatedLotIds).run db = .ok (ids, db')) :
    UnitsAgree db' := by
  obtain ⟨sale, db2, db3, hsold, hdone, hposted, hwash⟩ := recordSellFill_sold h
  have hrem : sale.remainingToSell.quanta = 0 := le_antisymm hdone (hsold.remaining hq)
  refine hwash unitsAgree_washSale fun c s => ?_
  have hunits := hsold.units c s
  have hagree := hdb c s
  simp only [lotUnits, postedUnits] at hunits hagree
  rw [hposted.postedUnits c s]
  simp only [lotUnits, postedUnits, hposted.lots.1, hsold.postings]
  rw [hunits, hagree, hrem, sub_zero]

/-- The remaining quantities a split starts from. -/
def openQuanta (db : Database) (customerId securityId : Uuid) : List ℤ :=
  (openForSecurity db customerId securityId).map (·.quantityRemaining.quanta)

/-- What the lots gain by the ratio, each rounded on its own, is what the position gains by it,
rounded once. -/
def SplitsEvenly (ratio : SplitRatio) (quanta : List ℤ) : Prop :=
  (quanta.map fun n => scaledQuanta n ratio.value - n).sum =
    scaledQuanta quanta.sum ratio.minusOne

instance (ratio : SplitRatio) (quanta : List ℤ) : Decidable (SplitsEvenly ratio quanta) := by
  unfold SplitsEvenly; infer_instance

theorem scaleLots_units {ratio : SplitRatio} {customerId securityId : Uuid} {u : Unit} :
    ∀ {lots : List TaxLot} {db db' : Database}, (lots.map (·.id)).Nodup →
    (∀ lot ∈ lots, lot ∈ db.taxLots ∧ lot.customerId = customerId ∧
      lot.securityId = securityId) →
    (each (scaleLot ratio) (lots.map (·.id))).run db = .ok (u, db') →
    db'.postings = db.postings ∧
    (∀ c s, lotUnits db' c s = lotUnits db c s + if customerId = c ∧ securityId = s then
      (lots.map fun lot => scaledQuanta lot.quantityRemaining.quanta ratio.value -
        lot.quantityRemaining.quanta).sum else 0) ∧
    ∀ c, c ≠ customerId → ∀ s, openForSecurity db' c s = openForSecurity db c s
  | [], db, db', _, _, h => by
    obtain ⟨-, rfl⟩ := pure_ok.mp h
    simp
  | lot :: lots, db, db', hnd, hlots, h => by
    simp only [List.map_cons, List.nodup_cons, each, bind_ok] at hnd h
    obtain ⟨_, mid, hscale, hrest⟩ := h
    obtain ⟨hlot, hcust, hsec⟩ := hlots lot (by simp)
    obtain ⟨lot0, hlot0, lot', hid, hscaled, rfl⟩ := scaleLot_ok hscale
    obtain rfl := Table.eq_of_key_eq hlot0 hlot hid
    have hstay : ∀ l ∈ lots, l ∈ db.taxLots.set lot' ∧ l.customerId = customerId ∧
        l.securityId = securityId := by
      intro l hl
      obtain ⟨hmem, hown⟩ := hlots l (by simp [hl])
      refine ⟨Table.mem_set.mpr (Or.inl ⟨hmem, fun e => hnd.1 ?_⟩), hown⟩
      exact List.mem_map.mpr ⟨l, hl, e.trans hscaled.id⟩
    obtain ⟨hpost, hunits, hopen⟩ := scaleLots_units hnd.2 hstay hrest
    refine ⟨hpost, fun c s => ?_, fun c hc s => ?_⟩
    · rw [hunits c s]
      simp only [lotUnits]
      rw [lotShare_set hlot hscaled.id hscaled.customerId hscaled.securityId,
        Units.scale_ok.mp hscaled.remaining, hcust, hsec, List.map_cons, List.sum_cons]
      split_ifs <;> ring
    · rw [hopen c hc s]
      refine Table.filter_set hlot hscaled.id.symm ?_ ?_
      · simp [hcust, hc.symm]
      · simp [hscaled.customerId, hcust, hc.symm]

theorem splitCustomer_unitsAgree {env : Env} {securityId : Uuid} {ratio : SplitRatio}
    {effectiveDate : Date} {customerId : Uuid} {db db' : Database} {u : Unit} (hdb : UnitsAgree db)
    (heven : SplitsEvenly ratio (openQuanta db customerId securityId))
    (h : (splitCustomer env securityId ratio effectiveDate customerId).run db = .ok (u, db')) :
    UnitsAgree db' ∧
      ∀ c, c ≠ customerId → openQuanta db' c securityId = openQuanta db c securityId := by
  rcases splitCustomer_ok h with rfl | ⟨mid, priorTotal, added, entry, units, accounts, entries,
    returns, events, disclosures, hprior, hscale, hadded, -, hunits, -, rfl⟩
  · exact ⟨hdb, fun _ _ => rfl⟩
  · have hopen : ∀ lot ∈ openForSecurity db customerId securityId, lot ∈ db.taxLots ∧
        lot.customerId = customerId ∧ lot.securityId = securityId := by
      intro lot hlot
      simp only [openForSecurity, List.mem_filter, decide_eq_true_eq] at hlot
      exact ⟨hlot.1, hlot.2.1, hlot.2.2.1⟩
    have hnd : ((openForSecurity db customerId securityId).map (·.id)).Nodup :=
      db.taxLots.nodup.sublist (List.filter_sublist.map _)
    obtain ⟨hpost, hlots, hother⟩ := scaleLots_units hnd hopen hscale
    refine ⟨fun c s => ?_, fun c hc => congrArg _ (hother c hc securityId)⟩
    have hgain : added.quanta = ((openForSecurity db customerId securityId).map fun lot =>
        scaledQuanta lot.quantityRemaining.quanta ratio.value -
          lot.quantityRemaining.quanta).sum := by
      rw [Units.scale_ok.mp hadded, hprior]
      rw [SplitsEvenly, openQuanta, List.map_map] at heven
      exact heven.symm
    show lotUnits mid c s = _
    rw [hlots c s, ← hgain, hdb c s]
    simp [postedUnits, hpost, isPosition_iff hunits, Amount.unitQuanta]

theorem splitCustomers_unitsAgree {env : Env} {securityId : Uuid} {ratio : SplitRatio}
    {effectiveDate : Date} {u : Unit} : ∀ {customers : List Uuid} {db db' : Database},
    customers.Nodup → UnitsAgree db →
    (∀ c ∈ customers, SplitsEvenly ratio (openQuanta db c securityId)) →
    (each (splitCustomer env securityId ratio effectiveDate) customers).run db = .ok (u, db') →
    UnitsAgree db'
  | [], db, db', _, hdb, _, h => by
    obtain ⟨-, rfl⟩ := pure_ok.mp h
    exact hdb
  | customer :: customers, db, db', hnd, hdb, heven, h => by
    simp only [List.nodup_cons, each, bind_ok] at hnd h
    obtain ⟨_, mid, hfirst, hrest⟩ := h
    obtain ⟨hmid, hother⟩ := splitCustomer_unitsAgree hdb (heven customer (by simp)) hfirst
    refine splitCustomers_unitsAgree hnd.2 hmid (fun c hc => ?_) hrest
    rw [hother c fun e => hnd.1 (e ▸ hc)]
    exact heven c (by simp [hc])

/-- A step whose arithmetic keeps the units: a sell fill of a quantity that is not negative, a
split whose roundings add up for every holder. -/
def KeepsUnits (db : Database) (step : LotStep) : Prop :=
  match step.op with
  | .buyFill _ _ => True
  | .sellFill _ fill _ => 0 ≤ fill.quantity.quanta
  | .split securityId ratio _ => ∀ customerId ∈ listCustomersHolding db securityId,
      SplitsEvenly ratio (openQuanta db customerId securityId)

instance (db : Database) (step : LotStep) : Decidable (KeepsUnits db step) := by
  unfold KeepsUnits; split <;> infer_instance

theorem lotBody_unitsAgree {db db' : Database} {step : LotStep} {u : Unit} (hdb : UnitsAgree db)
    (hstep : KeepsUnits db step) (h : (lotBody step).run db = .ok (u, db')) : UnitsAgree db' := by
  obtain ⟨env, op⟩ := step
  cases op with
  | buyFill clock fill =>
    simp only [lotBody, bind_ok, pure_ok] at h
    obtain ⟨lot, _, h, -, rfl⟩ := h
    exact recordBuyFill_unitsAgree env clock fill db lot _ hdb h
  | sellFill clock fill designatedLotIds =>
    simp only [lotBody, bind_ok, pure_ok] at h
    obtain ⟨ids, _, h, -, rfl⟩ := h
    exact recordSellFill_unitsAgree hstep hdb h
  | split securityId ratio effectiveDate =>
    simp only [lotBody, applySplit, bind_ok, require_ok, read_ok] at h
    obtain ⟨_, _, ⟨-, rfl⟩, customers, _, ⟨hcustomers, rfl⟩, h⟩ := h
    cases hcustomers
    exact splitCustomers_unitsAgree (List.nodup_dedup _) hdb hstep h

/-- **Lots and ledger agree on units** in every run whose sell fills are not negative and whose
splits round evenly. -/
theorem units_agree_of_run (steps : List LotStep) {db : Database} (h : Unopened db)
    (hsteps : RunMeets lotBody KeepsUnits steps db) (customerId securityId : Uuid) :
    lotUnits (runs lotBody steps db) customerId securityId =
      postedUnits (runs lotBody steps db) customerId securityId := by
  have hagree : UnitsAgree (runs lotBody steps db) := by
    refine runs_keeps_of_meets ?_ steps h.unitsAgree hsteps
    intro mid step u mid' hmid hstep hrun
    exact lotBody_unitsAgree hmid hstep hrun
  exact hagree customerId securityId

theorem units_agree_of_run_wash_sale :
    lotUnits (runs lotBody washSaleRun (openedAccount 1)) 1 7 = 20000000 ∧
      postedUnits (runs lotBody washSaleRun (openedAccount 1)) 1 7 = 20000000 := by
  have hunits : lotUnits (runs lotBody washSaleRun (openedAccount 1)) 1 7 = 20000000 := by
    decide +kernel
  exact ⟨hunits, (units_agree_of_run washSaleRun (unopened_openedAccount 1) (by decide +kernel)
    1 7).symm.trans hunits⟩

/-- Two lots of a millionth of a share, and a split of three for two. -/
def oddSplitRun : List LotStep := [
  ⟨envAt 10 1, .buyFill openedClock (fillAt 10 "a" microshare (dollarsPerShare 100))⟩,
  ⟨envAt 20 2, .buyFill openedClock (fillAt 20 "b" microshare (dollarsPerShare 100))⟩,
  ⟨envAt 30 3, .split 7 (.decimal (3 / 2)) 0⟩]

/-- Each lot rounds `1.5` to `2`; the posting adds `1` to the `2` there are. -/
theorem split_parts_lots_from_ledger : Unopened (openedAccount 1) ∧
    lotUnits (runs lotBody oddSplitRun (openedAccount 1)) 1 7 = 4 ∧
    postedUnits (runs lotBody oddSplitRun (openedAccount 1)) 1 7 = 3 :=
  ⟨unopened_openedAccount 1, by decide +kernel, by decide +kernel⟩

end Trueup.Lots
