import Mathlib.Data.Prod.Lex
import Trueup.Core.Isoformat
import Trueup.Core.Pagination
import Trueup.Lib.Keyset

/-! # The listings of a customer

`list_for_customer` of the orders, the tax lots and the published snapshots, with the endpoints that
page them: `controllers/api/orders.py`, `lots.py` and `statements.py`. Each reads the rows past the key
in the cursor, one more than the page has, and hands out the key of the last row as the next cursor.

* `listPage_eq`: a page is one of a walk over the keys.
* `follow_eq`: so are all the pages of a client that follows the cursors.
* `pagination_visits_all`: the client gets every row that was there from the start exactly once, in
  order, whatever is inserted between its requests, and comes to an end when the insertions do. -/

namespace Trueup.Api

open Trueup.Core Trueup.Models Trueup.Lib Trueup.Lib.Text Trueup.Lib.Json Trueup.Lib.Transaction

inductive SortOrder
  | asc | desc
  deriving DecidableEq

/-- What comes before what: in `>` of the keyset and in `ORDER BY`. -/
def SortOrder.lt {κ : Type} [LinearOrder κ] : SortOrder → κ → κ → Prop
  | .asc => fun a b => a < b
  | .desc => fun a b => b < a

instance {κ : Type} [LinearOrder κ] (order : SortOrder) : DecidableRel (order.lt (κ := κ)) := fun a b =>
  match order with
  | .asc => inferInstanceAs (Decidable (a < b))
  | .desc => inferInstanceAs (Decidable (b < a))

instance {κ : Type} [LinearOrder κ] (order : SortOrder) : IsStrictTotalOrder κ order.lt := by
  cases order with
  | asc => exact inferInstanceAs (IsStrictTotalOrder κ (· < ·))
  | desc => exact inferInstanceAs (IsStrictTotalOrder κ (Function.swap (· < ·)))

/-- What a listing is made of: the columns of its rows that the query compares, the order, and the
two functions of its endpoint between sort keys and cursors. -/
structure Listing (ρ κ : Type) [LinearOrder κ] where
  customerId : ρ → Uuid
  sortKey : ρ → κ
  sortOrder : SortOrder
  cursorKey : κ → List CursorValue
  decodeKey : List CursorValue → Except PaginationError κ
  decodeKey_cursorKey : ∀ k, decodeKey (cursorKey k) = .ok k
  fits : ∀ k, Fits (cursorKey k)

namespace Listing

variable {ρ κ : Type} [LinearOrder κ] (listing : Listing ρ κ)

/-- The rows of a customer. -/
def rowsOf (customerId : Uuid) (rows : List ρ) : List ρ :=
  rows.filter (listing.customerId · = customerId)

/-- `list_for_customer`. -/
def listForCustomer (rows : List ρ) (customerId : Uuid) (limit : ℕ) (after : Option κ) : List ρ :=
  Keyset.select listing.sortOrder.lt listing.sortKey after (limit + 1) (listing.rowsOf customerId rows)

variable (interpreter : Interpreter)

/-- The key that a `cursor` argument stands for. -/
def after (cursor : Option Str) : Except PaginationError (Option κ) :=
  match cursor with
  | none => .ok none
  | some raw =>
    if raw = [] then .ok none
    else do
      let decoded ← decodeCursor interpreter raw
      return some (← listing.decodeKey decoded)

/-- The page that the endpoint answers with. -/
def listPage (rows : List ρ) (customerId : Uuid) (limit : ℕ) (cursor : Option Str) :
    Except PaginationError (Page ρ) := do
  let after ← listing.after interpreter cursor
  paginate interpreter (listing.listForCustomer rows customerId limit after) limit fun row =>
    listing.cursorKey (listing.sortKey row)

/-- The pages of at most `n` requests, each with the cursor of the page before; the `i`-th request
reads the rows at time `i`. -/
def follow (customerId : Uuid) (limit : ℕ) (rows : ℕ → List ρ) :
    (n i : ℕ) → (cursor : Option Str) → Except PaginationError (List (Page ρ))
  | 0, _, _ => .ok []
  | n + 1, i, cursor => do
    let page ← listing.listPage interpreter (rows i) customerId limit cursor
    match page.nextCursor with
    | none => return [page]
    | some next => do
      let pages ← follow customerId limit rows n (i + 1) (some next)
      return page :: pages

end Listing

/-- The rows of some pages. -/
def visited {ρ : Type} (pages : List (Page ρ)) : List ρ := pages.flatMap (·.items)

/-- The client has come to an end: a page has no `next_cursor`. -/
def Finished {ρ : Type} (pages : List (Page ρ)) : Prop := ∃ page ∈ pages, page.nextCursor = none

/-! ### The pages -/

namespace Listing
section Pages
variable {ρ κ : Type} [LinearOrder κ] (listing : Listing ρ κ) (interpreter : Interpreter)

/-- The cursor is the one of the key. -/
def Represents (cursor : Option Str) (key : Option κ) : Prop :=
  (cursor = none ∧ key = none) ∨ ∃ c k, cursor = some c ∧ key = some k ∧
    encodeCursor interpreter (listing.cursorKey k) = .ok c

variable {listing interpreter} {limit : ℕ} {cursor : Option Str} {key : Option κ}

/-- A cursor stands for the key it was made of. -/
theorem Represents.after_eq (h : listing.Represents interpreter cursor key) :
    listing.after interpreter cursor = .ok key := by
  obtain ⟨rfl, rfl⟩ | ⟨c, k, rfl, rfl, hencode⟩ := h
  · rfl
  · obtain ⟨c', hencode', hne, hdecode⟩ := (listing.fits k).exists_cursor interpreter
    cases hencode.symm.trans hencode'
    unfold Listing.after
    dsimp only
    rw [if_neg hne, hdecode]
    show (do return some (← listing.decodeKey (listing.cursorKey k))) = _
    rw [listing.decodeKey_cursorKey]
    rfl

/-- **A page** is one of a walk over the keys. -/
theorem listPage_eq (customerId : Uuid) (hlimit : 0 < limit)
    (h : listing.Represents interpreter cursor key) (rows : List ρ) :
    ∃ page, listing.listPage interpreter rows customerId limit cursor = .ok page ∧
      page.items = (Keyset.page listing.sortOrder.lt listing.sortKey limit key
        (listing.rowsOf customerId rows)).1 ∧
      listing.Represents interpreter page.nextCursor (Keyset.page listing.sortOrder.lt listing.sortKey
        limit key (listing.rowsOf customerId rows)).2 := by
  obtain ⟨got, hgot⟩ : ∃ got, got = Keyset.select listing.sortOrder.lt listing.sortKey key (limit + 1)
    (listing.rowsOf customerId rows) := ⟨_, rfl⟩
  have hlist : listing.listPage interpreter rows customerId limit cursor =
      paginate interpreter got limit fun row => listing.cursorKey (listing.sortKey row) := by
    rw [listPage, h.after_eq, hgot]
    rfl
  rw [hlist, Keyset.page, ← hgot, paginate]
  by_cases hmore : limit < got.length
  · have hne : (got.take limit).getLast? ≠ none := by
      rw [Ne, List.getLast?_eq_none_iff]
      intro hnil
      have hlength := congrArg List.length hnil
      rw [List.length_take, List.length_nil] at hlength
      omega
    obtain ⟨last, hlast⟩ := Option.ne_none_iff_exists'.mp hne
    obtain ⟨c, hencode, -⟩ := (listing.fits (listing.sortKey last)).exists_cursor interpreter
    rw [if_pos hmore, if_pos hmore]
    refine ⟨⟨got.take limit, some c⟩, ?_, rfl, Or.inr ⟨c, listing.sortKey last, rfl, ?_, hencode⟩⟩
    · exact except_bind_ok.mpr ⟨last, ofOption_ok.mpr hlast, except_bind_ok.mpr ⟨c, hencode, rfl⟩⟩
    · exact Option.map_eq_some_iff.mpr ⟨last, hlast, rfl⟩
  · rw [if_neg hmore, if_neg hmore]
    exact ⟨_, rfl, rfl, Or.inl ⟨rfl, rfl⟩⟩

theorem follow_of_page {customerId : Uuid} {rows : ℕ → List ρ} {page : Page ρ} {i : ℕ} (n : ℕ)
    (h : listing.listPage interpreter (rows i) customerId limit cursor = .ok page) :
    listing.follow interpreter customerId limit rows (n + 1) i cursor = match page.nextCursor with
      | none => .ok [page]
      | some next => do
        let pages ← listing.follow interpreter customerId limit rows n (i + 1) (some next)
        return page :: pages := by
  rw [follow, h]
  rfl

/-- **The pages of a client** are those of a walk over the keys. -/
theorem follow_eq (customerId : Uuid) (hlimit : 0 < limit) (rows : ℕ → List ρ) :
    ∀ (n i : ℕ) {cursor : Option Str} {key : Option κ}, listing.Represents interpreter cursor key →
      ∃ pages, listing.follow interpreter customerId limit rows n i cursor = .ok pages ∧
        visited pages = Keyset.visited (Keyset.walk listing.sortOrder.lt listing.sortKey limit
          (fun i => listing.rowsOf customerId (rows i)) n i key) ∧
        (Finished pages ↔ Keyset.Finished (Keyset.walk listing.sortOrder.lt listing.sortKey limit
          (fun i => listing.rowsOf customerId (rows i)) n i key))
  | 0, _, _, _, _ =>
    ⟨[], rfl, rfl, iff_of_false (fun ⟨_, hp, _⟩ => by cases hp) fun ⟨_, hp, _⟩ => by cases hp⟩
  | n + 1, i, cursor, key, h => by
    obtain ⟨page, hpage, hitems, hnext⟩ :=
      listing.listPage_eq customerId hlimit h (rows i)
    rw [Keyset.walk_succ]
    obtain ⟨hnone, hkey⟩ | ⟨c, k, hsome, hkey, hencode⟩ := hnext
    · refine ⟨[page], ?_, ?_, ?_⟩
      · rw [follow_of_page n hpage, hnone]
      · rw [hkey]
        simp [visited, Keyset.visited, hitems]
      · rw [hkey]
        exact iff_of_true ⟨page, List.mem_cons_self, hnone⟩ ⟨_, List.mem_cons_self, hkey⟩
    · obtain ⟨pages, hpages, hvisited, hfinished⟩ :=
        follow_eq customerId hlimit rows n (i + 1) (Or.inr ⟨c, k, rfl, rfl, hencode⟩)
      refine ⟨page :: pages, ?_, ?_, ?_⟩
      · rw [follow_of_page n hpage, hsome]
        exact except_bind_ok.mpr ⟨pages, hpages, rfl⟩
      · rw [hkey]
        simp only [visited, Keyset.visited, List.flatMap_cons, hitems] at hvisited ⊢
        rw [hvisited]
      · rw [hkey]
        have hnot : ¬ page.nextCursor = none := by rw [hsome]; exact Option.some_ne_none c
        have hnot' : ¬ (Keyset.page listing.sortOrder.lt listing.sortKey limit key
            (listing.rowsOf customerId (rows i))).2 = none := by
          rw [hkey]
          exact Option.some_ne_none k
        simp only [Finished, Keyset.Finished, List.mem_cons, exists_eq_or_imp, hnot, hnot',
          false_or] at hfinished ⊢
        exact hfinished

end Pages
end Listing

/-! ### The three listings -/

/-- What the standard library makes of the texts that it does not write itself. -/
structure OtherTexts where
  date : Str → Option IsoDate
  datetime : Str → Option UtcDatetime
  uuid : Str → Option UUID

/-- `ValidationError("invalid pagination cursor")`. -/
def invalidCursor : PaginationError := .validationError "invalid pagination cursor"

/-- The texts that the sort keys are made of are short, and in ASCII. -/
theorem fits_texts (texts : List Str) (hne : texts ≠ []) (hascii : ∀ s ∈ texts, Ascii s)
    (hlength : texts.length ≤ 3) (hshort : ∀ s ∈ texts, s.length ≤ 40) :
    Fits (texts.map .str) := by
  refine ⟨by simpa using hne, fun value hvalue => ?_, ?_⟩
  · obtain ⟨s, hs, rfl⟩ := List.mem_map.mp hvalue
    exact (hascii s hs).noSurrogates
  · have hitems : (texts.map Scalar.str).mapM dumpScalar = .ok (texts.map encodeString) := by
      rw [mapM_ok_iff, List.forall₂_map_left_iff, List.forall₂_map_right_iff, List.forall₂_same]
      exact fun s _ => rfl
    have hle : ∀ s ∈ texts.map encodeString, s.length ≤ 482 := by
      intro s hs
      obtain ⟨t, ht, rfl⟩ := List.mem_map.mp hs
      have hencoded := length_encodeString_le t
      have ht := hshort t ht
      omega
    have hjoined := length_intercalate_le _ hle
    rw [List.length_map] at hjoined
    refine ⟨_, except_bind_ok.mpr ⟨_, hitems, rfl⟩, ?_⟩
    rw [List.length_cons, List.length_append, List.length_singleton]
    omega

/-- The columns of `order` that its listing reads. -/
structure OrderRow where
  id : UUID
  customerId : Uuid
  createdAt : UtcDatetime

/-- `_decode_order_cursor`, after `decode_cursor`. -/
def decodeOrderCursor (others : OtherTexts) :
    List CursorValue → Except PaginationError (UtcDatetime ×ₗ UUID)
  | [.str createdAt, .str id] => do
    let createdAt ← ofOption (UtcDatetime.fromisoformat others.datetime createdAt) invalidCursor
    let id ← ofOption (UUID.ofStr others.uuid id) invalidCursor
    return toLex (createdAt, id)
  | _ => .error invalidCursor

/-- `GET /api/v1/orders`. -/
def orderListing (others : OtherTexts) : Listing OrderRow (UtcDatetime ×ₗ UUID) where
  customerId := OrderRow.customerId
  sortKey o := toLex (o.createdAt, o.id)
  sortOrder := .desc
  cursorKey k := [.str (ofLex k).1.isoformat, .str (UUID.str (ofLex k).2)]
  decodeKey := decodeOrderCursor others
  decodeKey_cursorKey k := by
    rw [decodeOrderCursor, UtcDatetime.fromisoformat_isoformat, UUID.ofStr_str]
    rfl
  fits k := by
    have htime := UtcDatetime.length_isoformat_le (ofLex k).1
    have huuid := UUID.length_str (ofLex k).2
    refine fits_texts [_, _] (by simp) ?_ (by simp) ?_
    · simp [UtcDatetime.ascii_isoformat, UUID.ascii_str]
    · simp only [List.mem_cons, List.not_mem_nil, or_false, forall_eq_or_imp, forall_eq]
      omega

/-- The columns of `tax_lot` that its listing reads. -/
structure LotRow where
  id : UUID
  customerId : Uuid
  acquiredAt : IsoDate

/-- `_decode_lot_cursor`, after `decode_cursor`. -/
def decodeLotCursor (others : OtherTexts) : List CursorValue → Except PaginationError (IsoDate ×ₗ UUID)
  | [.str acquiredAt, .str id] => do
    let acquiredAt ← ofOption (IsoDate.fromisoformat others.date acquiredAt) invalidCursor
    let id ← ofOption (UUID.ofStr others.uuid id) invalidCursor
    return toLex (acquiredAt, id)
  | _ => .error invalidCursor

/-- `GET /api/v1/lots`. -/
def lotListing (others : OtherTexts) : Listing LotRow (IsoDate ×ₗ UUID) where
  customerId := LotRow.customerId
  sortKey lot := toLex (lot.acquiredAt, lot.id)
  sortOrder := .asc
  cursorKey k := [.str (ofLex k).1.isoformat, .str (UUID.str (ofLex k).2)]
  decodeKey := decodeLotCursor others
  decodeKey_cursorKey k := by
    rw [decodeLotCursor, IsoDate.fromisoformat_isoformat, UUID.ofStr_str]
    rfl
  fits k := by
    have hdate := IsoDate.length_isoformat (ofLex k).1
    have huuid := UUID.length_str (ofLex k).2
    refine fits_texts [_, _] (by simp) ?_ (by simp) ?_
    · simp [IsoDate.ascii_isoformat, UUID.ascii_str]
    · simp only [List.mem_cons, List.not_mem_nil, or_false, forall_eq_or_imp, forall_eq]
      omega

/-- The columns of `published_snapshot` that its listing reads. -/
structure SnapshotRow where
  id : UUID
  customerId : Uuid
  periodStart : IsoDate
  publishWatermark : UtcDatetime

/-- `_decode_statement_cursor`, after `decode_cursor`. -/
def decodeStatementCursor (others : OtherTexts) :
    List CursorValue → Except PaginationError (IsoDate ×ₗ (UtcDatetime ×ₗ UUID))
  | [.str periodStart, .str publishWatermark, .str id] => do
    let periodStart ← ofOption (IsoDate.fromisoformat others.date periodStart) invalidCursor
    let publishWatermark ←
      ofOption (UtcDatetime.fromisoformat others.datetime publishWatermark) invalidCursor
    let id ← ofOption (UUID.ofStr others.uuid id) invalidCursor
    return toLex (periodStart, toLex (publishWatermark, id))
  | _ => .error invalidCursor

/-- `GET /api/v1/statements`. -/
def statementListing (others : OtherTexts) :
    Listing SnapshotRow (IsoDate ×ₗ (UtcDatetime ×ₗ UUID)) where
  customerId := SnapshotRow.customerId
  sortKey s := toLex (s.periodStart, toLex (s.publishWatermark, s.id))
  sortOrder := .desc
  cursorKey k := [.str (ofLex k).1.isoformat, .str (ofLex (ofLex k).2).1.isoformat,
    .str (UUID.str (ofLex (ofLex k).2).2)]
  decodeKey := decodeStatementCursor others
  decodeKey_cursorKey k := by
    rw [decodeStatementCursor, IsoDate.fromisoformat_isoformat, UtcDatetime.fromisoformat_isoformat,
      UUID.ofStr_str]
    rfl
  fits k := by
    have hdate := IsoDate.length_isoformat (ofLex k).1
    have htime := UtcDatetime.length_isoformat_le (ofLex (ofLex k).2).1
    have huuid := UUID.length_str (ofLex (ofLex k).2).2
    refine fits_texts [_, _, _] (by simp) ?_ (by simp) ?_
    · simp [IsoDate.ascii_isoformat, UtcDatetime.ascii_isoformat, UUID.ascii_str]
    · simp only [List.mem_cons, List.not_mem_nil, or_false, forall_eq_or_imp, forall_eq]
      omega

/-! ### The walk of a client -/

/-- **The client gets every row exactly once**, in order: every row that was there from the start,
however many others are inserted between the requests; and he comes to an end when that stops. -/
theorem pagination_visits_all {ρ κ : Type} [LinearOrder κ] (listing : Listing ρ κ)
    (interpreter : Interpreter) (customerId : Uuid) {limit : ℕ} (hlimit : 1 ≤ limit)
    {rows : ℕ → List ρ} (hunique : ∀ i, ((rows i).map listing.sortKey).Nodup)
    (hinsert : ∀ i, rows i ⊆ rows (i + 1)) :
    (∀ n, ∃ pages, listing.follow interpreter customerId limit rows n 0 none = .ok pages ∧
      (visited pages).Nodup ∧
      (visited pages).Pairwise (fun a b =>
        listing.sortOrder.lt (listing.sortKey a) (listing.sortKey b)) ∧
      (∀ r ∈ visited pages, listing.customerId r = customerId ∧ ∃ i < n, r ∈ rows i) ∧
      (Finished pages → ∀ r ∈ rows 0, listing.customerId r = customerId → r ∈ visited pages)) ∧
    ((∃ m, ∀ j ≥ m, rows j = rows m) → ∃ n pages,
      listing.follow interpreter customerId limit rows n 0 none = .ok pages ∧ Finished pages) := by
  have hunique' : ∀ i, ((listing.rowsOf customerId (rows i)).map
      listing.sortKey).Nodup := fun i => (hunique i).sublist (List.filter_sublist.map _)
  have hinsert' : ∀ i, listing.rowsOf customerId (rows i) ⊆
      listing.rowsOf customerId (rows (i + 1)) := by
    intro i r hr
    obtain ⟨hmem, hcustomer⟩ := List.mem_filter.mp hr
    exact List.mem_filter.mpr ⟨hinsert i hmem, hcustomer⟩
  have hstart : listing.Represents interpreter none none := Or.inl ⟨rfl, rfl⟩
  refine ⟨fun n => ?_, fun ⟨m, hstable⟩ => ?_⟩
  · obtain ⟨pages, hpages, hvisited, hfinished⟩ := Listing.follow_eq customerId hlimit rows n 0 hstart
    have hsorted : (Keyset.visited (Keyset.walk listing.sortOrder.lt listing.sortKey limit
        (fun i => listing.rowsOf customerId (rows i)) n 0 none)).Pairwise fun a b =>
          listing.sortOrder.lt (listing.sortKey a) (listing.sortKey b) :=
      Keyset.walk_sorted hlimit hunique' n 0 none
    refine ⟨pages, hpages, ?_, ?_, fun r hr => ?_, fun hend r hr hcustomer => ?_⟩
    · rw [hvisited]
      refine List.Pairwise.imp (fun {a b} hlt => ?_) hsorted
      rintro rfl
      exact irrefl_of listing.sortOrder.lt _ hlt
    · rw [hvisited]
      exact hsorted
    · rw [hvisited] at hr
      obtain ⟨i, hi, hmem⟩ := Keyset.mem_of_mem_walk hlimit hunique' n hr
      obtain ⟨hmem, hcustomer⟩ := List.mem_filter.mp hmem
      exact ⟨of_decide_eq_true hcustomer, i, by omega, hmem⟩
    · rw [hvisited]
      exact Keyset.walk_covers hlimit hunique' hinsert' n (hfinished.mp hend)
        (List.mem_filter.mpr ⟨hr, decide_eq_true hcustomer⟩) fun _ h => by cases h
  · obtain ⟨n, hend⟩ : ∃ n, Keyset.Finished (Keyset.walk listing.sortOrder.lt listing.sortKey limit
        (fun i => listing.rowsOf customerId (rows i)) n 0 none) := by
      refine Keyset.exists_walk_finished hlimit hunique' m none fun j hj => ?_
      rw [Nat.zero_add] at hj ⊢
      rw [hstable j hj]
    obtain ⟨pages, hpages, -, hfinished⟩ := Listing.follow_eq customerId hlimit rows n 0 hstart
    exact ⟨n, pages, hpages, hfinished.mpr hend⟩

section Morning

/-- An interpreter with the digest of zeros. -/
def plainInterpreter : Interpreter := interpreterOf ⟨List.replicate 32 0, by decide⟩

/-- A library that reads the texts it writes and no others. -/
def noOthers : OtherTexts := ⟨fun _ => none, fun _ => none, fun _ => none⟩

def newYear : IsoDate where
  year := 2024
  month := 1
  day := 1
  month_mem := by decide
  day_mem := by decide
  year_mem := by decide

/-- The orders of a customer: one at nine, one at ten, and after the first request one at eleven. -/
def morningOrders (i : ℕ) : List OrderRow :=
  let order hour id : OrderRow := ⟨id, 7, ⟨newYear, hour, 0, 0, 0⟩⟩
  [order 9 1, order 10 2] ++ if i = 0 then [] else [order 11 3]

/-- Page by page, the client gets the two orders that were there when he started. -/
theorem pagination_visits_all_morning :
    ((orderListing noOthers).follow plainInterpreter 7 1 morningOrders 2 0 none).map
      (fun pages => (visited pages).map OrderRow.id) = .ok [2, 1] ∧
    ∃ n pages, (orderListing noOthers).follow plainInterpreter 7 1 morningOrders n 0 none = .ok pages ∧
      Finished pages := by
  have hlater : ∀ i, morningOrders (i + 1) = morningOrders 1 := fun i => rfl
  have hunique : ∀ i, ((morningOrders i).map (orderListing noOthers).sortKey).Nodup := by
    rintro (_ | i)
    · decide
    · rw [hlater]
      decide
  have hinsert : ∀ i, morningOrders i ⊆ morningOrders (i + 1) := by
    rintro (_ | i)
    · exact List.subset_append_left _ _
    · exact List.Subset.refl _
  refine ⟨by decide +kernel, (pagination_visits_all (orderListing noOthers) plainInterpreter 7 le_rfl
    hunique hinsert).2 ⟨1, ?_⟩⟩
  rintro (_ | j) hj
  · omega
  · exact hlater j

end Morning

end Trueup.Api
