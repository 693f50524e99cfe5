import Trueup.Valuation.ValuationService

/-! # What a valuation adds up

The positions of a customer are sums of his postings by security (`ledgerUnits`), each listed once,
and the value of a book is his cash and the market value of each position, rounded on its own
(`valueBook_ok`). A position without a close counts for nothing in it (`totalValue_completed`), and
there is a value as long as the amounts fit (`valueBook_returns`). -/

namespace Trueup.Valuation

open Trueup.Core Trueup.Models Trueup.Lib Trueup.Lib.Transaction Trueup.Ledger

/-- The quanta of a security that the customer's postings up to the day add up to. -/
def ledgerUnits (db : Database) (customerId : Uuid) (asOfDate : Date) (securityId : Uuid) : ℤ :=
  (((db.postings.filter fun p => isUnitsOf customerId p && isEffectiveBy db asOfDate p).filter
    (·.account.securityId = some securityId)).map (·.amount.unitQuanta)).sum

/-- The quanta of cash that the customer's postings up to the day add up to. -/
def ledgerCash (db : Database) (customerId : Uuid) (asOfDate : Date) : ℤ :=
  ((db.postings.filter fun p => isCashOf customerId p && isEffectiveBy db asOfDate p).map
    (·.amount.moneyQuanta)).sum

/-- The market value of a position at the day's confirmed close; nothing without one. -/
def marketQuanta (db : Database) (asOfDate : Date) (position : Uuid × Units) : ℤ :=
  match latestConfirmed db position.1 asOfDate with
  | none => 0
  | some close => notional close.closePrice position.2

section Positions
variable {db : Database} {customerId : Uuid} {asOfDate : Date}

theorem cashBalance_quanta {cash : Money} (h : cashBalance db customerId asOfDate = .ok cash) :
    cash.quanta = ledgerCash db customerId asOfDate := Money.ofSum_ok.mp h

/-- **The positions** are the sums of the postings, each security once. -/
theorem positionUnits_ok {positions : List (Uuid × Units)}
    (h : positionUnits db customerId asOfDate = .ok positions) :
    (positions.map Prod.fst).Nodup ∧
      (∀ s u, (s, u) ∈ positions → u.quanta = ledgerUnits db customerId asOfDate s) ∧
      ∀ s, s ∉ positions.map Prod.fst → ledgerUnits db customerId asOfDate s = 0 := by
  unfold positionUnits at h
  dsimp only at h
  set postings := db.postings.filter fun p => isUnitsOf customerId p && isEffectiveBy db asOfDate p
    with hpostings
  have hall := mapM_ok_iff.mp h
  have hkeys : positions.map Prod.fst = (postings.filterMap (·.account.securityId)).dedup := by
    rw [← List.forall₂_eq_eq_eq, List.forall₂_map_left_iff]
    refine List.Forall₂.imp (fun s p hp => ?_) hall.flip
    obtain ⟨units, -, hpure⟩ := except_bind_ok.mp hp
    cases hpure
    rfl
  refine ⟨hkeys ▸ List.nodup_dedup _, fun s u hmem => ?_, fun s hs => ?_⟩
  · obtain ⟨s', -, hp⟩ := mem_of_mapM_ok h hmem
    obtain ⟨units, hunits, hpure⟩ := except_bind_ok.mp hp
    cases hpure
    exact (QuantizedDecimal.ofSum_ok (by norm_num)).mp hunits
  · rw [hkeys, List.mem_dedup] at hs
    have hnone : postings.filter (·.account.securityId = some s) = [] := by
      refine List.filter_eq_nil_iff.mpr fun p hp hsecurity => hs ?_
      exact List.mem_filterMap.mpr ⟨p, hp, of_decide_eq_true hsecurity⟩
    rw [ledgerUnits, ← hpostings, hnone]
    rfl

/-- **What is held** are the positions that are not zero. -/
theorem heldUnits_ok {held : List (Uuid × Units)}
    (h : heldUnits db customerId asOfDate = .ok held) :
    (held.map Prod.fst).Nodup ∧ ∀ s u, (s, u) ∈ held ↔
      u.quanta = ledgerUnits db customerId asOfDate s ∧
        ledgerUnits db customerId asOfDate s ≠ 0 := by
  obtain ⟨positions, hpositions, hpure⟩ := except_bind_ok.mp h
  cases hpure
  obtain ⟨hnodup, hunits, hnone⟩ := positionUnits_ok hpositions
  refine ⟨hnodup.sublist (List.filter_sublist.map _), fun s u => ?_⟩
  rw [List.mem_filter, decide_eq_true_eq]
  constructor
  · rintro ⟨hmem, hne⟩
    have hquanta := hunits s u hmem
    exact ⟨hquanta, fun h0 => hne (QuantizedDecimal.ext (hquanta.trans h0))⟩
  · rintro ⟨hquanta, hne⟩
    have hlisted : s ∈ positions.map Prod.fst := by
      by_contra hnot
      exact hne (hnone s hnot)
    obtain ⟨⟨s', u'⟩, hmem, rfl⟩ := List.mem_map.mp hlisted
    obtain rfl : u = u' := QuantizedDecimal.ext (hquanta.trans (hunits s' u' hmem).symm)
    refine ⟨hmem, fun h0 => hne ?_⟩
    rw [← hquanta, show u = 0 from h0]
    rfl

theorem mem_held_iff {held : List (Uuid × Units)} (h : heldUnits db customerId asOfDate = .ok held)
    {s : Uuid} : s ∈ held.map Prod.fst ↔ ledgerUnits db customerId asOfDate s ≠ 0 := by
  obtain ⟨-, hheld⟩ := heldUnits_ok h
  constructor
  · intro hs
    obtain ⟨⟨s', u⟩, hmem, rfl⟩ := List.mem_map.mp hs
    exact ((hheld s' u).mp hmem).2
  · intro hne
    obtain ⟨positions, hpositions, -⟩ := except_bind_ok.mp h
    obtain ⟨-, hunits, hnone⟩ := positionUnits_ok hpositions
    have hlisted : s ∈ positions.map Prod.fst := by
      by_contra hnot
      exact hne (hnone s hnot)
    obtain ⟨⟨s', u⟩, hmem, rfl⟩ := List.mem_map.mp hlisted
    exact List.mem_map.mpr ⟨(s', u), (hheld s' u).mpr ⟨hunits s' u hmem, hne⟩, rfl⟩

theorem marketQuanta_zero {position : Uuid × Units} (h : position.2 = 0) :
    marketQuanta db asOfDate position = 0 := by
  unfold marketQuanta
  split
  · rfl
  · rw [h]
    simpa [notional] using Rounding.roundHalfEven_intCast 0

/-- The loop adds the market values, and a position without a close makes the book partial. -/
theorem addPositions_ok : ∀ {positions : List (Uuid × Units)} {book book' : BookValuation},
    addPositions db asOfDate positions book = .ok book' →
      book'.totalValue.quanta =
          book.totalValue.quanta + (positions.map (marketQuanta db asOfDate)).sum ∧
        (book'.isPartial = true ↔ book.isPartial = true ∨
          ∃ p ∈ positions, p.2 ≠ 0 ∧ latestConfirmed db p.1 asOfDate = none)
  | [], book, book', h => by
    cases h
    simp
  | (s, u) :: positions, book, book', h => by
    rw [addPositions] at h
    rw [List.map_cons, List.sum_cons]
    split_ifs at h with hzero
    · obtain ⟨htotal, hincomplete⟩ := addPositions_ok h
      rw [htotal, hincomplete, marketQuanta_zero hzero]
      simp [hzero]
    · cases hclose : latestConfirmed db s asOfDate with
      | none =>
        rw [hclose] at h
        obtain ⟨htotal, hincomplete⟩ := addPositions_ok h
        rw [htotal, hincomplete]
        simp [marketQuanta, hclose, hzero]
      | some close =>
        simp only [hclose, except_bind_ok] at h
        obtain ⟨value, hvalue, total, hadd, h⟩ := h
        obtain ⟨htotal, hincomplete⟩ := addPositions_ok h
        rw [htotal, hincomplete, Money.add_ok.mp hadd, Price.times_ok.mp hvalue]
        simp only [marketQuanta, hclose, List.mem_cons, exists_eq_or_imp, reduceCtorEq, and_false,
          false_or, and_true]
        omega

/-- **The value of a book** is the cash and the market value of each position. -/
theorem valueBook_ok {book : BookValuation} (h : valueBook db customerId asOfDate = .ok book) :
    ∃ positions, positionUnits db customerId asOfDate = .ok positions ∧
      book.totalValue.quanta = ledgerCash db customerId asOfDate +
        (positions.map (marketQuanta db asOfDate)).sum ∧
      (book.isPartial = true ↔
        ∃ s, ledgerUnits db customerId asOfDate s ≠ 0 ∧ latestConfirmed db s asOfDate = none) := by
  simp only [valueBook, except_bind_ok] at h
  obtain ⟨cash, hcash, positions, hpositions, hadd⟩ := h
  obtain ⟨htotal, hincomplete⟩ := addPositions_ok hadd
  obtain ⟨-, hunits, hnone⟩ := positionUnits_ok hpositions
  refine ⟨positions, hpositions, by rw [htotal, ← cashBalance_quanta hcash], hincomplete.trans ?_⟩
  constructor
  · rintro (hfalse | ⟨⟨s, u⟩, hmem, hne, hclose⟩)
    · cases hfalse
    · refine ⟨s, fun h0 => hne (QuantizedDecimal.ext ?_), hclose⟩
      exact (hunits s u hmem).trans h0
  · rintro ⟨s, hne, hclose⟩
    have hlisted : s ∈ positions.map Prod.fst := by
      by_contra hnot
      exact hne (hnone s hnot)
    obtain ⟨⟨s', u⟩, hmem, rfl⟩ := List.mem_map.mp hlisted
    refine Or.inr ⟨(s', u), hmem, fun h0 => hne ?_, hclose⟩
    rw [← hunits s' u hmem, show u = 0 from h0]
    rfl

/-- **What a partial book leaves out**: with closes for the positions that have none, it comes to
more by their market values. -/
theorem totalValue_completed {db' : Database} {book book' : BookValuation}
    (hentries : db'.journalEntries = db.journalEntries) (hpostings : db'.postings = db.postings)
    (hcloses : ∀ s close, latestConfirmed db s asOfDate = some close →
      latestConfirmed db' s asOfDate = some close)
    (h : valueBook db customerId asOfDate = .ok book)
    (h' : valueBook db' customerId asOfDate = .ok book') :
    ∃ positions, positionUnits db customerId asOfDate = .ok positions ∧
      book'.totalValue.quanta = book.totalValue.quanta + ((positions.filter fun p =>
        latestConfirmed db p.1 asOfDate = none).map (marketQuanta db' asOfDate)).sum := by
  obtain ⟨positions, hpositions, htotal, -⟩ := valueBook_ok h
  obtain ⟨positions', hpositions', htotal', -⟩ := valueBook_ok h'
  have hsame : positionUnits db' customerId asOfDate = positionUnits db customerId asOfDate := by
    simp only [positionUnits, isEffectiveBy, hentries, hpostings]
  obtain rfl : positions' = positions := Except.ok.inj (hpositions'.symm.trans (hsame.trans hpositions))
  have hcash : ledgerCash db' customerId asOfDate = ledgerCash db customerId asOfDate := by
    simp only [ledgerCash, isEffectiveBy, hentries, hpostings]
  refine ⟨positions', hpositions, ?_⟩
  rw [htotal, htotal', hcash, add_assoc]
  congr 1
  clear hpositions hpositions' htotal htotal'
  induction positions' with
  | nil => rfl
  | cons p positions ih =>
    rw [List.map_cons, List.sum_cons, List.map_cons, List.sum_cons, ih]
    cases hclose : latestConfirmed db p.1 asOfDate with
    | none =>
      have hzero : marketQuanta db asOfDate p = 0 := by rw [marketQuanta, hclose]
      rw [List.filter_cons_of_pos (by simp [hclose]), List.map_cons, List.sum_cons, hzero]
      ring
    | some close =>
      have hvalue : marketQuanta db' asOfDate p = marketQuanta db asOfDate p := by
        rw [marketQuanta, marketQuanta, hclose, hcloses p.1 close hclose]
      rw [List.filter_cons_of_neg (by simp [hclose]), hvalue]
      ring

theorem sum_marketQuanta_held {positions : List (Uuid × Units)} :
    ((positions.filter (·.2 ≠ 0)).map (marketQuanta db asOfDate)).sum =
      (positions.map (marketQuanta db asOfDate)).sum := by
  induction positions with
  | nil => rfl
  | cons p positions ih =>
    by_cases hzero : p.2 = 0
    · rw [List.filter_cons_of_neg (by simpa using hzero), ih, List.map_cons, List.sum_cons,
        marketQuanta_zero hzero, zero_add]
    · rw [List.filter_cons_of_pos (by simpa using hzero), List.map_cons, List.sum_cons, ih,
        List.map_cons, List.sum_cons]

/-! ### When a book has a value -/

/-- The amounts of the loop fit a `Money`: the market value of each position, and what it is added
up to. -/
def AmountsFit (db : Database) (asOfDate : Date) : List (Uuid × Units) → ℤ → Prop
  | [], _ => True
  | position :: positions, total =>
    |marketQuanta db asOfDate position| < 10 ^ 18 ∧
      |total + marketQuanta db asOfDate position| < 10 ^ 18 ∧
      AmountsFit db asOfDate positions (total + marketQuanta db asOfDate position)

theorem addPositions_returns : ∀ {positions : List (Uuid × Units)} {book : BookValuation},
    (∃ book', addPositions db asOfDate positions book = .ok book') ↔
      AmountsFit db asOfDate positions book.totalValue.quanta
  | [], book => iff_of_true ⟨book, rfl⟩ trivial
  | (s, u) :: positions, book => by
    have hskip : ∀ {book' : BookValuation}, book'.totalValue = book.totalValue →
        marketQuanta db asOfDate (s, u) = 0 →
        ((∃ last, addPositions db asOfDate positions book' = .ok last) ↔
          AmountsFit db asOfDate ((s, u) :: positions) book.totalValue.quanta) := by
      intro book' htotal hzero
      rw [addPositions_returns, htotal, AmountsFit, hzero, add_zero]
      exact ⟨fun hfit => ⟨by norm_num, book.totalValue.fits, hfit⟩, fun hfit => hfit.2.2⟩
    rw [addPositions]
    split_ifs with hu
    · exact hskip rfl (marketQuanta_zero hu)
    · cases hclose : latestConfirmed db s asOfDate with
      | none => exact hskip rfl (by rw [marketQuanta, hclose])
      | some close =>
        have hmarket : marketQuanta db asOfDate (s, u) = notional close.closePrice u := by
          rw [marketQuanta, hclose]
        simp only [except_bind_ok, AmountsFit, hmarket]
        constructor
        · rintro ⟨book', value, hvalue, total, hadd, hrest⟩
          rw [Price.times_ok] at hvalue
          rw [Money.add_ok, hvalue] at hadd
          have hfit := addPositions_returns.mp ⟨book', hrest⟩
          rw [← hvalue, ← hadd] at *
          exact ⟨value.fits, total.fits, hfit⟩
        · rintro ⟨hvalue, htotal, hfit⟩
          obtain ⟨value, hvalue⟩ := QuantizedDecimal.exists_quanta.mpr hvalue
          obtain ⟨total, htotal⟩ := QuantizedDecimal.exists_quanta.mpr htotal
          rw [← htotal] at hfit
          have hreturns : ∃ book', addPositions db asOfDate positions
              { book with totalValue := total } = .ok book' := addPositions_returns.mpr hfit
          obtain ⟨book', hrest⟩ := hreturns
          exact ⟨book', value, Price.times_ok.mpr hvalue, total,
            Money.add_ok.mpr (by rw [htotal, hvalue]), hrest⟩

theorem positionUnits_returns : (∃ positions, positionUnits db customerId asOfDate = .ok positions) ↔
    ∀ s, |ledgerUnits db customerId asOfDate s| < 10 ^ 28 := by
  constructor
  · rintro ⟨positions, h⟩ s
    obtain ⟨-, hunits, hnone⟩ := positionUnits_ok h
    by_cases hlisted : s ∈ positions.map Prod.fst
    · obtain ⟨⟨_, u⟩, hmem, rfl⟩ := List.mem_map.mp hlisted
      exact hunits _ u hmem ▸ u.fits
    · rw [hnone s hlisted]
      norm_num
  · intro hfit
    refine exists_mapM_ok fun s _ => ?_
    obtain ⟨units, hunits⟩ := QuantizedDecimal.exists_quanta.mpr (hfit s)
    exact ⟨(s, units), except_bind_ok.mpr
      ⟨units, (QuantizedDecimal.ofSum_ok (by norm_num)).mpr hunits, rfl⟩⟩

/-- **When `value_book` returns**: the cash, the positions and the amounts of the loop fit. -/
theorem valueBook_returns : (∃ book, valueBook db customerId asOfDate = .ok book) ↔
    |ledgerCash db customerId asOfDate| < 10 ^ 18 ∧
      ∃ positions, positionUnits db customerId asOfDate = .ok positions ∧
        AmountsFit db asOfDate positions (ledgerCash db customerId asOfDate) := by
  simp only [valueBook, except_bind_ok]
  constructor
  · rintro ⟨book, cash, hcash, positions, hpositions, hadd⟩
    have hquanta := cashBalance_quanta hcash
    have hfit := addPositions_returns.mp ⟨book, hadd⟩
    rw [← hquanta]
    exact ⟨cash.fits, positions, hpositions, hfit⟩
  · rintro ⟨hcash, positions, hpositions, hfit⟩
    obtain ⟨cash, hcash⟩ := QuantizedDecimal.exists_quanta.mpr hcash
    rw [← hcash] at hfit
    have hreturns : ∃ book, addPositions db asOfDate positions ⟨cash, false⟩ = .ok book :=
      addPositions_returns.mpr hfit
    obtain ⟨book, hadd⟩ := hreturns
    exact ⟨book, cash, Money.ofSum_ok.mpr hcash, positions, hpositions, hadd⟩

end Positions

end Trueup.Valuation
