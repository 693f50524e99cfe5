import Trueup.Orders.Convergence

/-! # The average fill price

`fold` divides the total notional by the filled quantity. The notional of each fill is a `Money`,
rounded to four places on its own, so that the average is the mean of the booked notionals
(`bookedMean`), not that of the prices (`exactMean`): the two differ by at most half of `10 ^ -4`
for every fill, over the filled quantity.

* `fold_average`: the average price is the booked mean, rounded once.
* `averageFillPrice_mean`: with it how near the exact mean it is, and that it is the exact mean, and
  among the prices of the fills, when no notional is rounded. -/

namespace Trueup.Orders

open Trueup.Core Trueup.Models Trueup.Lib Trueup.Lib.Rounding Trueup.Lib.Transaction

/-! ### The mean of some fills -/

/-- The quantities and the prices of the fills among some events. -/
def fillsOf (events : List OrderEvent) : List (Units × Price) :=
  (events.filter (·.eventType = .fill)).filterMap fun e => (fillOf e).toOption

/-- The quantity-weighted mean of the prices. -/
def exactMean (fills : List (Units × Price)) : ℚ :=
  (fills.map fun f => f.2.value * f.1.value).sum / (fills.map fun f => f.1.value).sum

/-- The mean of the notionals as `Money` books them. -/
def bookedMean (fills : List (Units × Price)) : ℚ :=
  (fills.map fun f => (notional f.2 f.1 : ℚ) / 10 ^ 4).sum / (fills.map fun f => f.1.value).sum

/-- Every fill has a positive quantity and a positive price. -/
def PositiveFills (fills : List (Units × Price)) : Prop := ∀ f ∈ fills, 0 < f.1 ∧ 0 < f.2

/-- The products of the prices and the quantities are whole numbers of ten-thousandths. -/
def WholeNotionals (fills : List (Units × Price)) : Prop :=
  ∀ f ∈ fills, ∃ z : ℤ, f.2.value * f.1.value = z / 10 ^ 4

section Means
variable {fills : List (Units × Price)}

theorem PositiveFills.value_pos (h : PositiveFills fills) {f : Units × Price} (hf : f ∈ fills) :
    0 < f.1.value ∧ 0 < f.2.value := by
  obtain ⟨hq, hp⟩ := h f hf
  rw [QuantizedDecimal.lt_def, QuantizedDecimal.quanta_zero] at hq hp
  have hq' : (0 : ℚ) < f.1.quanta := by exact_mod_cast hq
  have hp' : (0 : ℚ) < f.2.quanta := by exact_mod_cast hp
  unfold QuantizedDecimal.value
  constructor <;> positivity

theorem PositiveFills.filled_pos (h : PositiveFills fills) (hne : fills ≠ []) :
    0 < (fills.map fun f => f.1.value).sum := by
  obtain ⟨f, rest, rfl⟩ := List.exists_cons_of_ne_nil hne
  have hfirst := (h.value_pos (f := f) (by simp)).1
  have hrest : 0 ≤ (rest.map fun f => f.1.value).sum := by
    refine List.sum_nonneg fun x hx => ?_
    obtain ⟨g, hg, rfl⟩ := List.mem_map.mp hx
    exact (h.value_pos (List.mem_cons_of_mem _ hg)).1.le
  rw [List.map_cons, List.sum_cons]
  linarith

theorem abs_notional_sub_le (price : Price) (quantity : Units) :
    |(notional price quantity : ℚ) / 10 ^ 4 - price.value * quantity.value| ≤ 1 / 2 / 10 ^ 4 := by
  have h := abs_sub_roundHalfEven (((price.quanta * quantity.quanta : ℤ) : ℚ) / 10 ^ 8)
  have hdist : (notional price quantity : ℚ) / 10 ^ 4 - price.value * quantity.value =
      (notional price quantity - ((price.quanta * quantity.quanta : ℤ) : ℚ) / 10 ^ 8) / 10 ^ 4 := by
    unfold QuantizedDecimal.value
    push_cast
    ring
  rw [hdist, abs_div, abs_of_pos (by norm_num : (0 : ℚ) < 10 ^ 4)]
  gcongr
  exact h

theorem abs_bookedMean_sub_le (h : PositiveFills fills) (hne : fills ≠ []) :
    |bookedMean fills - exactMean fills| ≤
      fills.length * (1 / 2 / 10 ^ 4) / (fills.map fun f => f.1.value).sum := by
  have hpos := h.filled_pos hne
  have hsum : |(fills.map fun f => (notional f.2 f.1 : ℚ) / 10 ^ 4).sum -
      (fills.map fun f => f.2.value * f.1.value).sum| ≤ fills.length * (1 / 2 / 10 ^ 4) :=
    abs_sum_map_sub_le fun f _ => abs_notional_sub_le f.2 f.1
  rw [bookedMean, exactMean, ← sub_div, abs_div, abs_of_pos hpos]
  exact div_le_div_of_nonneg_right hsum hpos.le

theorem WholeNotionals.bookedMean_eq (h : WholeNotionals fills) :
    bookedMean fills = exactMean fills := by
  unfold bookedMean exactMean
  congr 2
  refine List.map_congr_left fun f hf => ?_
  obtain ⟨z, hz⟩ := h f hf
  have hquanta : ((f.2.quanta * f.1.quanta : ℤ) : ℚ) / 10 ^ 8 = z := by
    have : ((f.2.quanta * f.1.quanta : ℤ) : ℚ) / 10 ^ 8 = f.2.value * f.1.value * 10 ^ 4 := by
      unfold QuantizedDecimal.value
      push_cast
      ring
    rw [this, hz]
    field_simp
  rw [hz, notional, hquanta, roundHalfEven_intCast]

theorem exactMean_between (h : PositiveFills fills) (hne : fills ≠ []) {low high : Price}
    (hbetween : ∀ f ∈ fills, low ≤ f.2 ∧ f.2 ≤ high) :
    low.value ≤ exactMean fills ∧ exactMean fills ≤ high.value := by
  have hpos := h.filled_pos hne
  have hle : ∀ {a b : Price}, a ≤ b → a.value ≤ b.value := by
    intro a b hab
    have : (a.quanta : ℚ) ≤ b.quanta := by exact_mod_cast QuantizedDecimal.le_def.mp hab
    unfold QuantizedDecimal.value
    gcongr
  unfold exactMean
  rw [le_div_iff₀ hpos, div_le_iff₀ hpos, ← List.sum_map_mul_left, ← List.sum_map_mul_left]
  constructor
  · exact List.sum_le_sum fun f hf =>
      mul_le_mul_of_nonneg_right (hle (hbetween f hf).1) (h.value_pos hf).1.le
  · exact List.sum_le_sum fun f hf =>
      mul_le_mul_of_nonneg_right (hle (hbetween f hf).2) (h.value_pos hf).1.le

/-- A price that the mean is rounded to is among the prices. -/
theorem between_of_roundsTo (h : PositiveFills fills) (hne : fills ≠ []) {average low high : Price}
    (haverage : RoundsTo (exactMean fills) average)
    (hbetween : ∀ f ∈ fills, low ≤ f.2 ∧ f.2 ≤ high) : low ≤ average ∧ average ≤ high := by
  obtain ⟨hlow, hhigh⟩ := exactMean_between h hne hbetween
  have hquanta : ∀ a : Price, a.value * 10 ^ 6 = (a.quanta : ℚ) := by
    intro a
    unfold QuantizedDecimal.value
    field_simp
  rw [QuantizedDecimal.le_def, QuantizedDecimal.le_def, roundsTo_iff.mp haverage]
  constructor
  · refine le_roundHalfEven ?_
    rw [← hquanta]
    gcongr
  · rw [← roundHalfEven_intCast high.quanta, ← hquanta]
    exact roundHalfEven_mono (by gcongr)

end Means

/-! ### The fold of the fills -/

theorem mem_fillsOf {events : List OrderEvent} {f : Units × Price} :
    f ∈ fillsOf events ↔ ∃ e ∈ events, e.eventType = .fill ∧ fillOf e = .ok f := by
  unfold fillsOf
  simp only [List.mem_filterMap, List.mem_filter, decide_eq_true_eq]
  constructor
  · rintro ⟨e, ⟨he, hfill⟩, hf⟩
    cases hof : fillOf e with
    | error err => rw [hof] at hf; cases hf
    | ok g =>
      rw [hof] at hf
      cases hf
      exact ⟨e, he, hfill, hof⟩
  · rintro ⟨e, he, hfill, hof⟩
    exact ⟨e, ⟨he, hfill⟩, by rw [hof]; rfl⟩

/-- The events of an order whose fills have positive quantities and prices. -/
def FilledPositively (events : List OrderEvent) : Prop :=
  ∀ e ∈ events, e.eventType = .fill →
    ∃ quantity price, fillOf e = .ok (quantity, price) ∧ 0 < quantity ∧ 0 < price

section Events
variable {events : List OrderEvent}

theorem FilledPositively.valid (h : FilledPositively events) : ValidFills events := by
  intro e he hfill
  obtain ⟨quantity, price, hof, hq, hp⟩ := h e he hfill
  rw [QuantizedDecimal.lt_def] at hp
  exact ⟨quantity, price, hof, hq, QuantizedDecimal.le_def.mpr hp.le⟩

theorem FilledPositively.positive (h : FilledPositively events) :
    PositiveFills (fillsOf events) := by
  intro f hf
  obtain ⟨e, he, hfill, hof⟩ := mem_fillsOf.mp hf
  obtain ⟨quantity, price, hof', hq, hp⟩ := h e he hfill
  obtain rfl : f = (quantity, price) := Except.ok.inj (hof.symm.trans hof')
  exact ⟨hq, hp⟩

theorem sum_fillsOf : ∀ {events : List OrderEvent},
    (events.map fillQuanta).sum = ((fillsOf events).map fun f => f.1.quanta).sum ∧
      (events.map fillNotional).sum = ((fillsOf events).map fun f => notional f.2 f.1).sum
  | [] => ⟨rfl, rfl⟩
  | e :: events => by
    obtain ⟨hquanta, hnotional⟩ := @sum_fillsOf events
    rw [List.map_cons, List.map_cons, List.sum_cons, List.sum_cons, hquanta, hnotional]
    cases htype : e.eventType with
    | fill =>
      cases hof : fillOf e with
      | error err => simp [fillsOf, fillQuanta, fillNotional, htype, hof, Except.toOption]
      | ok f => simp [fillsOf, fillQuanta, fillNotional, htype, hof, Except.toOption]
    | _ => simp [fillsOf, fillQuanta, fillNotional, htype]

theorem totals_value {quantityRequested : Units} {acc : Folded}
    (h : foldEvents quantityRequested (sortBySeq events) .start = .ok acc) :
    acc.filledQuantity.value = ((fillsOf events).map fun f => f.1.value).sum ∧
      acc.totalNotional.value =
        ((fillsOf events).map fun f => (notional f.2 f.1 : ℚ) / 10 ^ 4).sum := by
  obtain ⟨hq, hn⟩ := foldEvents_totals h
  rw [sum_fillsOf.1] at hq
  rw [sum_fillsOf.2] at hn
  have hcast : ∀ (l : List (Units × Price)) (g : Units × Price → ℤ) (k : ℕ),
      (((l.map g).sum : ℤ) : ℚ) / 10 ^ k = (l.map fun f => (g f : ℚ) / 10 ^ k).sum := by
    intro l g k
    induction l with
    | nil => simp
    | cons f l ih =>
      rw [List.map_cons, List.map_cons, List.sum_cons, List.sum_cons, ← ih]
      push_cast
      ring
  constructor
  · rw [QuantizedDecimal.value, hq, hcast]
    rfl
  · rw [QuantizedDecimal.value, hn, hcast]

/-- **The average price is the booked mean**, rounded once. -/
theorem fold_average {quantityRequested : Units} {state : OrderProjectionState}
    (hpositive : FilledPositively events) (hne : fillsOf events ≠ [])
    (h : fold events quantityRequested = .ok state) :
    ∃ average, state.averageFillPrice = some average ∧
      RoundsTo (bookedMean (fillsOf events)) average := by
  simp only [fold, except_bind_ok] at h
  obtain ⟨acc, hacc, average, haverage, h⟩ := h
  cases h
  obtain ⟨hq, hn⟩ := totals_value hacc
  have hpos := hpositive.positive.filled_pos hne
  have hfilled : 0 < acc.filledQuantity := by
    rw [QuantizedDecimal.lt_def, QuantizedDecimal.quanta_zero]
    rw [← hq, QuantizedDecimal.value] at hpos
    have : (0 : ℚ) < acc.filledQuantity.quanta := by
      have := mul_pos hpos (by norm_num : (0 : ℚ) < 10 ^ 6)
      rwa [div_mul_cancel₀ _ (by norm_num)] at this
    exact_mod_cast this
  rw [averageFillPrice, if_pos hfilled, except_map_ok] at haverage
  obtain ⟨price, hprice, rfl⟩ := haverage
  obtain ⟨-, hquanta⟩ := Money.perUnit_ok.mp hprice
  refine ⟨price, rfl, ?_⟩
  rw [roundsTo_iff, bookedMean, ← hq, ← hn, hquanta]

theorem bookedMean_nonneg (h : PositiveFills (fillsOf events)) :
    0 ≤ bookedMean (fillsOf events) := by
  refine div_nonneg (List.sum_nonneg fun x hx => ?_) (List.sum_nonneg fun x hx => ?_)
  · obtain ⟨f, hf, rfl⟩ := List.mem_map.mp hx
    obtain ⟨hq, hp⟩ := h f hf
    rw [QuantizedDecimal.lt_def, QuantizedDecimal.quanta_zero] at hq hp
    have : (0 : ℚ) ≤ notional f.2 f.1 := by exact_mod_cast notional_nonneg hp.le hq.le
    positivity
  · obtain ⟨f, hf, rfl⟩ := List.mem_map.mp hx
    exact (h.value_pos hf).1.le

/-- Positive fills fold exactly when the totals and the average price fit their columns. -/
theorem fold_isOk_iff_fits (hpositive : FilledPositively events) (hne : fillsOf events ≠ [])
    (quantityRequested : Units) : (fold events quantityRequested).isOk ↔
      (events.map fillQuanta).sum < 10 ^ 28 ∧ (events.map fillNotional).sum < 10 ^ 18 ∧
        roundHalfEven (bookedMean (fillsOf events) * 10 ^ 6) < 10 ^ 18 := by
  have hperm := sortBySeq_perm events
  constructor
  · intro hok
    cases hfold : fold events quantityRequested with
    | error err => rw [hfold] at hok; cases hok
    | ok state =>
      obtain ⟨price, -, hprice⟩ := fold_average hpositive hne hfold
      obtain ⟨acc, average, hacc, -⟩ := fold_isOk_iff.mp hok
      obtain ⟨hq, hn⟩ := foldEvents_totals hacc
      rw [← hq, ← hn, ← roundsTo_iff.mp hprice]
      exact ⟨(abs_lt.mp acc.filledQuantity.fits).2, (abs_lt.mp acc.totalNotional.fits).2,
        (abs_lt.mp price.fits).2⟩
  · rintro ⟨hquantity, htotal, hmean⟩
    have hvalid : ValidFills (sortBySeq events) :=
      hpositive.valid.sublist fun e he => hperm.mem_iff.mp he
    obtain ⟨acc, hacc⟩ := foldEvents_of_fits quantityRequested .start hvalid le_rfl le_rfl
      (by rw [(hperm.map fillQuanta).sum_eq]; simpa [Folded.start] using hquantity)
      (by rw [(hperm.map fillNotional).sum_eq]; simpa [Folded.start] using htotal)
    obtain ⟨hq, hn⟩ := totals_value hacc
    refine fold_isOk_iff.mpr ⟨acc, ?_⟩
    by_cases hfilled : 0 < acc.filledQuantity
    · have hnonneg := roundHalfEven_nonneg (mul_nonneg (bookedMean_nonneg hpositive.positive)
        (by norm_num : (0 : ℚ) ≤ 10 ^ 6))
      have hprice : Money.perUnit acc.totalNotional acc.filledQuantity =
          .ok ⟨roundHalfEven (bookedMean (fillsOf events) * 10 ^ 6), by
            rw [abs_of_nonneg hnonneg]; exact hmean⟩ := by
        rw [Money.perUnit_ok, hq, hn]
        rw [QuantizedDecimal.lt_def, QuantizedDecimal.quanta_zero] at hfilled
        exact ⟨hfilled.ne', rfl⟩
      exact ⟨some _, hacc, by rw [averageFillPrice, if_pos hfilled, hprice]; rfl⟩
    · exact ⟨none, hacc, by rw [averageFillPrice, if_neg hfilled]⟩

/-- **What the average fill price is**: the mean of the booked notionals, rounded once; the exact
mean up to what the bookings round; and the exact mean rounded, among the prices, when they round
nothing. -/
theorem averageFillPrice_mean (hpositive : FilledPositively events) (hne : fillsOf events ≠ [])
    (quantityRequested : Units) :
    ((fold events quantityRequested).isOk ↔
      (events.map fillQuanta).sum < 10 ^ 28 ∧ (events.map fillNotional).sum < 10 ^ 18 ∧
        roundHalfEven (bookedMean (fillsOf events) * 10 ^ 6) < 10 ^ 18) ∧
    ∀ state, fold events quantityRequested = .ok state → ∃ average,
      state.averageFillPrice = some average ∧
      RoundsTo (bookedMean (fillsOf events)) average ∧
      |average.value - exactMean (fillsOf events)| ≤ 1 / 2 / 10 ^ 6 +
        (fillsOf events).length * (1 / 2 / 10 ^ 4) / ((fillsOf events).map fun f => f.1.value).sum ∧
      (WholeNotionals (fillsOf events) → RoundsTo (exactMean (fillsOf events)) average ∧
        ∀ low high : Price, (∀ f ∈ fillsOf events, low ≤ f.2 ∧ f.2 ≤ high) →
          low ≤ average ∧ average ≤ high) := by
  refine ⟨fold_isOk_iff_fits hpositive hne quantityRequested, fun state h => ?_⟩
  obtain ⟨average, haverage, hrounds⟩ := fold_average hpositive hne h
  refine ⟨average, haverage, hrounds, ?_, fun hwhole => ?_⟩
  · exact (abs_sub_le _ (bookedMean (fillsOf events)) _).trans
      (add_le_add hrounds.1 (abs_bookedMean_sub_le hpositive.positive hne))
  · rw [hwhole.bookedMean_eq] at hrounds
    exact ⟨hrounds, fun low high => between_of_roundsTo hpositive.positive hne hrounds⟩

end Events

/-! ### Three fills, and a millionth of a share -/

/-- Fills at three prices; the notional of the second, 1.00000233…, is rounded. -/
def threeFills : List OrderEvent :=
  [fillEvent 1 "exec-1" 1 2, fillEvent 2 "exec-2" 0.333333 3.00001, fillEvent 3 "exec-3" 2 2.5]

theorem filledPositively_threeFills : FilledPositively threeFills := by
  intro e he _
  simp only [threeFills, List.mem_cons, List.not_mem_nil, or_false] at he
  rcases he with rfl | rfl | rfl
  · exact ⟨shares 1, dollarsPerShare 2, by decide +kernel, by decide, by decide⟩
  · exact ⟨⟨333333, by decide⟩, ⟨3000010, by decide⟩, by decide +kernel, by decide, by decide⟩
  · exact ⟨shares 2, ⟨2500000, by decide⟩, by decide +kernel, by decide, by decide⟩

theorem averageFillPrice_mean_three : ∃ state average,
    fold threeFills (shares 10) = .ok state ∧ state.averageFillPrice = some average ∧
      average = (⟨2400000, by decide⟩ : Price) ∧ RoundsTo (bookedMean (fillsOf threeFills)) average ∧
      |average.value - exactMean (fillsOf threeFills)| ≤ 1 / 2 / 10 ^ 6 +
        (fillsOf threeFills).length * (1 / 2 / 10 ^ 4) /
          ((fillsOf threeFills).map fun f => f.1.value).sum := by
  have hne : fillsOf threeFills ≠ [] := by decide +kernel
  obtain ⟨-, hmean⟩ := averageFillPrice_mean filledPositively_threeFills hne (shares 10)
  have hfold : fold threeFills (shares 10) =
      .ok ⟨.partiallyFilled, ⟨3333333, by decide⟩, some ⟨2400000, by decide⟩⟩ := by
    decide +kernel
  obtain ⟨average, haverage, hrounds, hnear, -⟩ := hmean _ hfold
  exact ⟨_, average, hfold, haverage, (Option.some.inj haverage).symm, hrounds, hnear⟩

/-- A millionth of a share for a dollar: nothing is booked, and the average price is zero. -/
theorem average_below_prices : ¬ ∀ (events : List OrderEvent) (quantityRequested : Units)
    (state : OrderProjectionState), FilledPositively events → fillsOf events ≠ [] →
      fold events quantityRequested = .ok state → ∃ average,
        state.averageFillPrice = some average ∧ RoundsTo (exactMean (fillsOf events)) average ∧
          ∀ low high : Price, (∀ f ∈ fillsOf events, low ≤ f.2 ∧ f.2 ≤ high) →
            low ≤ average ∧ average ≤ high := by
  intro h
  have hpositive : FilledPositively [fillEvent 1 "exec-1" (1 / 10 ^ 6) 1] := by
    intro e he _
    obtain rfl := List.mem_singleton.mp he
    exact ⟨microshare, dollarsPerShare 1, by decide +kernel, by decide, by decide⟩
  have hfills : fillsOf [fillEvent 1 "exec-1" (1 / 10 ^ 6) 1] = [(microshare, dollarsPerShare 1)] := by
    decide +kernel
  have hfold : fold [fillEvent 1 "exec-1" (1 / 10 ^ 6) 1] (shares 10) =
      .ok ⟨.partiallyFilled, microshare, some 0⟩ := by
    decide +kernel
  obtain ⟨average, haverage, -, hbetween⟩ := h _ _ _ hpositive (by rw [hfills]; simp) hfold
  obtain rfl := Option.some.inj haverage
  obtain ⟨hlow, -⟩ := hbetween (dollarsPerShare 1) (dollarsPerShare 1) (by
    rw [hfills]
    simp [QuantizedDecimal.le_def])
  exact absurd hlow (by decide)

end Trueup.Orders
