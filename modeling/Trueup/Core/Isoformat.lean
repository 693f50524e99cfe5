import Mathlib.Order.Basic
import Trueup.Core.Calendar
import Trueup.Core.Clock
import Trueup.Lib.Text

/-! # Dates, times and uuids as text

`isoformat` of a `date` and of a `datetime` in UTC, `str` of a `UUID`, and the functions that read
such a text: `fromisoformat` and the constructor of `UUID`. These read more texts than the others
write; what they make of the rest is a parameter.

* `fromisoformat_isoformat` of a date and of a datetime, `ofStr_str` of a uuid: what was written reads
  back. -/

namespace Trueup.Core

open Trueup.Models Trueup.Lib.Text

/-- The reading of a text: of what `write` writes, and of the `other` texts. -/
def fromText {α : Type} (write : α → Str) (read other : Str → Option α) (s : Str) : Option α :=
  match read s with
  | some a => if write a = s then some a else other s
  | none => other s

theorem fromText_write {α : Type} {write : α → Str} {read : Str → Option α} (other : Str → Option α)
    {a : α} (h : read (write a) = some a) : fromText write read other (write a) = some a := by
  rw [fromText, h]
  exact if_pos rfl

/-! ### Dates -/

namespace CalendarDate

theorem toordinal_eq (d : CalendarDate) : d.toordinal = monthStart d.monthIndex + (d.day - 1) := by
  have hfirst := d.toordinal_firstOfMonth
  have hone : d.firstOfMonth.toordinal = d.toordinal - d.day + 1 := by
    simp only [toordinal, firstOfMonth]
    omega
  omega

theorem toordinal_lt {d d' : CalendarDate} (h : d.monthIndex < d'.monthIndex) :
    d.toordinal < d'.toordinal := by
  have hmonths := monthStart_strictMono.monotone (by omega : d.monthIndex + 1 ≤ d'.monthIndex)
  have hsucc := monthStart_succ d.monthIndex
  have hmonth := d.month_mem
  have hyear : d.monthIndex / 12 = d.year := by unfold monthIndex; omega
  have hindex : d.monthIndex % 12 + 1 = d.month := by unfold monthIndex; omega
  rw [hyear, hindex] at hsucc
  have hday := d.day_mem
  have hday' := d'.day_mem
  rw [toordinal_eq, toordinal_eq]
  omega

/-- **No two dates** have the same ordinal. -/
theorem toordinal_injective : Function.Injective toordinal := by
  intro d d' h
  have hindex : d.monthIndex = d'.monthIndex := by
    rcases lt_trichotomy d.monthIndex d'.monthIndex with hlt | heq | hgt
    · exact absurd h (toordinal_lt hlt).ne
    · exact heq
    · exact absurd h (toordinal_lt hgt).ne'
  have hday : d.day = d'.day := by
    rw [toordinal_eq, toordinal_eq, hindex] at h
    omega
  have hmonth := d.month_mem
  have hmonth' := d'.month_mem
  obtain ⟨year, month, day, _, _⟩ := d
  obtain ⟨year', month', day', _, _⟩ := d'
  simp only [monthIndex] at hindex hday hmonth hmonth'
  obtain rfl : year = year' := by omega
  obtain rfl : month = month' := by omega
  subst hday
  rfl

end CalendarDate

/-- A `date`: its year is one from `MINYEAR` to `MAXYEAR`. -/
structure IsoDate extends CalendarDate where
  year_mem : 1 ≤ year ∧ year ≤ 9999

namespace IsoDate

theorem date_injective : Function.Injective fun d : IsoDate => d.date := by
  intro d d' h
  have hdate : d.toCalendarDate = d'.toCalendarDate :=
    CalendarDate.toordinal_injective (by simpa [CalendarDate.date] using h)
  cases d
  cases d'
  cases hdate
  rfl

/-- The dates in the order of the days. -/
instance : LinearOrder IsoDate := LinearOrder.lift' (fun d => d.date) date_injective

/-- `isoformat`. -/
def isoformat (d : IsoDate) : Str :=
  fixed 10 4 d.year.toNat ++ (ch '-' :: (fixed 10 2 d.month.toNat ++
    (ch '-' :: fixed 10 2 d.day.toNat)))

/-- The date whose numbers stand in their places. -/
def read (s : Str) : Option IsoDate :=
  let year : ℤ := number 10 (s.take 4)
  let month : ℤ := number 10 ((s.drop 5).take 2)
  let day : ℤ := number 10 ((s.drop 8).take 2)
  if h : (1 ≤ month ∧ month ≤ 12) ∧ (1 ≤ day ∧ day ≤ daysInMonth year month) ∧
      (1 ≤ year ∧ year ≤ 9999) then
    some { year, month, day, month_mem := h.1, day_mem := h.2.1, year_mem := h.2.2 }
  else none

/-- `fromisoformat`. -/
def fromisoformat (other : Str → Option IsoDate) : Str → Option IsoDate :=
  fromText isoformat read other

theorem length_isoformat (d : IsoDate) : d.isoformat.length = 10 := by simp [isoformat]

theorem ascii_isoformat (d : IsoDate) : Ascii d.isoformat := by
  have hfixed : ∀ width n, Ascii (fixed 10 width n) := ascii_fixed (by norm_num) (by norm_num)
  exact ascii_append (hfixed _ _) (ascii_cons (by decide) (ascii_append (hfixed _ _)
    (ascii_cons (by decide) (hfixed _ _))))

theorem read_isoformat (d : IsoDate) : read d.isoformat = some d := by
  have hyear := d.year_mem
  have hmonth := d.month_mem
  have hday := d.day_mem
  have hdays : daysInMonth d.year d.month ≤ 31 := by
    unfold daysInMonth
    split_ifs <;> norm_num
  have h1 : number 10 (d.isoformat.take 4) = d.year.toNat :=
    number_field (by norm_num) (by norm_num) (by norm_num; omega) [] _ rfl rfl
  have h2 : number 10 ((d.isoformat.drop 5).take 2) = d.month.toNat :=
    number_field (by norm_num) (by norm_num) (by norm_num; omega) (fixed 10 4 d.year.toNat ++ [ch '-'])
      (ch '-' :: fixed 10 2 d.day.toNat) (by simp [isoformat]) (by simp)
  have h3 : number 10 ((d.isoformat.drop 8).take 2) = d.day.toNat :=
    number_field (by norm_num) (by norm_num) (by norm_num; omega)
      (fixed 10 4 d.year.toNat ++ (ch '-' :: (fixed 10 2 d.month.toNat ++ [ch '-']))) []
      (by simp [isoformat]) (by simp)
  have hdate : ((d.year.toNat : ℤ) = d.year ∧ (d.month.toNat : ℤ) = d.month) ∧
      (d.day.toNat : ℤ) = d.day := by omega
  unfold read
  simp only [h1, h2, h3, hdate.1.1, hdate.1.2, hdate.2]
  rw [dif_pos ⟨hmonth, hday, hyear⟩]

/-- **A date** reads back. -/
theorem fromisoformat_isoformat (other : Str → Option IsoDate) (d : IsoDate) :
    fromisoformat other d.isoformat = some d := fromText_write other (read_isoformat d)

end IsoDate

/-! ### Times -/

/-- A `datetime` in UTC. -/
structure UtcDatetime where
  day : IsoDate
  hour : Fin 24
  minute : Fin 60
  second : Fin 60
  microsecond : Fin 1000000

namespace UtcDatetime

/-- The microseconds of the day. -/
def microseconds (t : UtcDatetime) : ℕ :=
  ((t.hour * 60 + t.minute) * 60 + t.second) * 1000000 + t.microsecond

def instant (t : UtcDatetime) : Instant := t.day.date * 86400000000 + t.microseconds

/-- **No two times** are the same instant. -/
theorem instant_injective : Function.Injective instant := by
  intro t t' h
  have hmicroseconds : ∀ t : UtcDatetime, t.microseconds < 86400000000 := fun t => by
    unfold microseconds
    omega
  have hbound := hmicroseconds t
  have hbound' := hmicroseconds t'
  obtain ⟨x, hx⟩ : ∃ x : ℤ, x = t.day.date := ⟨_, rfl⟩
  obtain ⟨x', hx'⟩ : ∃ x' : ℤ, x' = t'.day.date := ⟨_, rfl⟩
  have hsum : x * 86400000000 + (t.microseconds : ℤ) = x' * 86400000000 + (t'.microseconds : ℤ) := by
    rw [hx, hx']
    exact h
  have hdate : x = x' := by omega
  have hrest : t.microseconds = t'.microseconds := by omega
  have hday : t.day = t'.day := IsoDate.date_injective (hx.symm.trans (hdate.trans hx'))
  obtain ⟨day, hour, minute, second, microsecond⟩ := t
  obtain ⟨day', hour', minute', second', microsecond'⟩ := t'
  simp only [microseconds] at hrest hday
  have hhour : hour = hour' := Fin.ext (by omega)
  have hminute : minute = minute' := Fin.ext (by omega)
  have hsecond : second = second' := Fin.ext (by omega)
  have hmicrosecond : microsecond = microsecond' := Fin.ext (by omega)
  rw [hday, hhour, hminute, hsecond, hmicrosecond]

/-- The times in the order of the instants. -/
instance : LinearOrder UtcDatetime := LinearOrder.lift' instant instant_injective

/-- The microseconds, which are left out when there are none. -/
def fraction (t : UtcDatetime) : Str :=
  if t.microsecond.val = 0 then [] else ch '.' :: fixed 10 6 t.microsecond

/-- `isoformat`. -/
def isoformat (t : UtcDatetime) : Str :=
  t.day.isoformat ++ (ch 'T' :: (fixed 10 2 t.hour ++ (ch ':' :: (fixed 10 2 t.minute ++
    (ch ':' :: (fixed 10 2 t.second ++ (t.fraction ++ text "+00:00")))))))

/-- The time whose numbers stand in their places. -/
def read (s : Str) : Option UtcDatetime := do
  let day ← IsoDate.read (s.take 10)
  let hour := number 10 ((s.drop 11).take 2)
  let minute := number 10 ((s.drop 14).take 2)
  let second := number 10 ((s.drop 17).take 2)
  let microsecond := if s.length = 25 then 0 else number 10 ((s.drop 20).take 6)
  if h : (hour < 24 ∧ minute < 60) ∧ (second < 60 ∧ microsecond < 1000000) then
    some ⟨day, ⟨hour, h.1.1⟩, ⟨minute, h.1.2⟩, ⟨second, h.2.1⟩, ⟨microsecond, h.2.2⟩⟩
  else none

/-- `fromisoformat`. -/
def fromisoformat (other : Str → Option UtcDatetime) : Str → Option UtcDatetime :=
  fromText isoformat read other

theorem length_isoformat (t : UtcDatetime) : t.isoformat.length = 25 + t.fraction.length := by
  have hzone : (text "+00:00").length = 6 := rfl
  simp only [isoformat, List.length_append, List.length_cons, length_fixed, t.day.length_isoformat,
    hzone]
  omega

theorem length_isoformat_le (t : UtcDatetime) : t.isoformat.length ≤ 32 := by
  have hfraction : t.fraction.length ≤ 7 := by
    unfold fraction
    split_ifs <;> simp
  rw [length_isoformat]
  omega

theorem ascii_isoformat (t : UtcDatetime) : Ascii t.isoformat := by
  have hfixed : ∀ width n, Ascii (fixed 10 width n) := ascii_fixed (by norm_num) (by norm_num)
  have hzone : Ascii (text "+00:00") := by decide
  have hfraction : Ascii t.fraction := by
    unfold fraction
    split_ifs
    · exact fun c hc => by cases hc
    · exact ascii_cons (by decide) (hfixed _ _)
  exact ascii_append t.day.ascii_isoformat (ascii_cons (by decide)
    (ascii_append (hfixed _ _) (ascii_cons (by decide) (ascii_append (hfixed _ _)
      (ascii_cons (by decide) (ascii_append (hfixed _ _) (ascii_append hfraction hzone)))))))

theorem read_fraction (t : UtcDatetime) :
    (if t.isoformat.length = 25 then 0 else number 10 ((t.isoformat.drop 20).take 6)) =
      t.microsecond.val := by
  have hday := t.day.length_isoformat
  by_cases hzero : t.microsecond.val = 0
  · rw [length_isoformat, fraction, if_pos hzero, List.length_nil, if_pos (Nat.add_zero 25), hzero]
  · have hfraction : t.fraction = ch '.' :: fixed 10 6 t.microsecond := if_neg hzero
    rw [length_isoformat, hfraction, if_neg (by rw [List.length_cons]; omega)]
    exact number_field (by norm_num) (by norm_num) t.microsecond.isLt
      (t.day.isoformat ++ (ch 'T' :: (fixed 10 2 t.hour ++ (ch ':' :: (fixed 10 2 t.minute ++
        (ch ':' :: (fixed 10 2 t.second ++ [ch '.']))))))) (text "+00:00")
      (by simp [isoformat, hfraction]) (by simp [hday])

theorem read_isoformat (t : UtcDatetime) : read t.isoformat = some t := by
  have hday := t.day.length_isoformat
  have hhour := t.hour.isLt
  have hminute := t.minute.isLt
  have hsecond := t.second.isLt
  have h1 : t.isoformat.take 10 = t.day.isoformat := List.take_left' hday
  have h2 : number 10 ((t.isoformat.drop 11).take 2) = t.hour :=
    number_field (by norm_num) (by norm_num) (by norm_num; omega) (t.day.isoformat ++ [ch 'T'])
      (ch ':' :: (fixed 10 2 t.minute ++ (ch ':' :: (fixed 10 2 t.second ++
        (t.fraction ++ text "+00:00"))))) (by simp [isoformat]) (by simp [hday])
  have h3 : number 10 ((t.isoformat.drop 14).take 2) = t.minute :=
    number_field (by norm_num) (by norm_num) (by norm_num; omega)
      (t.day.isoformat ++ (ch 'T' :: (fixed 10 2 t.hour ++ [ch ':'])))
      (ch ':' :: (fixed 10 2 t.second ++ (t.fraction ++ text "+00:00"))) (by simp [isoformat])
      (by simp [hday])
  have h4 : number 10 ((t.isoformat.drop 17).take 2) = t.second :=
    number_field (by norm_num) (by norm_num) (by norm_num; omega)
      (t.day.isoformat ++ (ch 'T' :: (fixed 10 2 t.hour ++ (ch ':' :: (fixed 10 2 t.minute ++ [ch ':'])))))
      (t.fraction ++ text "+00:00") (by simp [isoformat]) (by simp [hday])
  unfold read
  simp only [h1, h2, h3, h4, read_fraction, IsoDate.read_isoformat, Option.bind_eq_bind,
    Option.bind_some]
  rw [dif_pos ⟨⟨hhour, hminute⟩, hsecond, t.microsecond.isLt⟩]

/-- **A time** reads back. -/
theorem fromisoformat_isoformat (other : Str → Option UtcDatetime) (t : UtcDatetime) :
    fromisoformat other t.isoformat = some t := fromText_write other (read_isoformat t)

end UtcDatetime

/-! ### Uuids -/

abbrev UUID := Fin (2 ^ 128)

namespace UUID

/-- The digits of a uuid in their groups. -/
def groups (hex : Str) : Str :=
  hex.take 8 ++ (ch '-' :: ((hex.drop 8).take 4 ++ (ch '-' :: ((hex.drop 12).take 4 ++
    (ch '-' :: ((hex.drop 16).take 4 ++ (ch '-' :: hex.drop 20)))))))

/-- `str`. -/
def str (u : UUID) : Str := groups (fixed 16 32 u)

/-- The uuid that the digits are, without the hyphens. -/
def read (s : Str) : Option UUID :=
  if h : number 16 (s.filter (· ≠ ch '-')) < 2 ^ 128 then some ⟨_, h⟩ else none

/-- The constructor of `UUID`, of a text. -/
def ofStr (other : Str → Option UUID) : Str → Option UUID := fromText str read other

theorem length_str (u : UUID) : u.str.length = 36 := by simp [str, groups]

theorem ascii_groups {hex : Str} (h : Ascii hex) : Ascii (groups hex) := by
  have hfirst : Ascii (hex.take 8) := fun c hc => h c (List.mem_of_mem_take hc)
  have hpart : ∀ m n, Ascii ((hex.drop m).take n) := fun m n c hc =>
    h c (List.mem_of_mem_drop (List.mem_of_mem_take hc))
  have hlast : Ascii (hex.drop 20) := fun c hc => h c (List.mem_of_mem_drop hc)
  exact ascii_append hfirst (ascii_cons (by decide) (ascii_append (hpart _ _)
    (ascii_cons (by decide) (ascii_append (hpart _ _) (ascii_cons (by decide)
      (ascii_append (hpart _ _) (ascii_cons (by decide) hlast)))))))

theorem ascii_str (u : UUID) : Ascii u.str :=
  ascii_groups (ascii_fixed (by norm_num) le_rfl 32 u)

theorem filter_groups {hex : Str} (h : ∀ c ∈ hex, c ≠ ch '-') :
    (groups hex).filter (· ≠ ch '-') = hex := by
  have hpart : ∀ part : Str, (∀ c ∈ part, c ∈ hex) → part.filter (· ≠ ch '-') = part :=
    fun part hpart => List.filter_eq_self.mpr fun c hc => decide_eq_true (h c (hpart c hc))
  have htake : ∀ m n, ((hex.drop m).take n).filter (· ≠ ch '-') = (hex.drop m).take n := fun m n =>
    hpart _ fun c hc => List.mem_of_mem_drop (List.mem_of_mem_take hc)
  have hjoin : ∀ m n, (hex.drop m).take n ++ hex.drop (m + n) = hex.drop m := fun m n => by
    rw [← List.drop_drop, List.take_append_drop]
  have hfirst := htake 0 8
  have hlast := hpart (hex.drop 20) fun c hc => List.mem_of_mem_drop hc
  rw [List.drop_zero] at hfirst
  simp only [groups, List.filter_append, List.filter_cons, ne_eq, not_true_eq_false, decide_false,
    Bool.false_eq_true, if_false] at hfirst htake hlast ⊢
  rw [hfirst, htake, htake, htake, hlast, hjoin 16 4, hjoin 12 4, hjoin 8 4]
  exact List.take_append_drop 8 hex

theorem number_str (u : UUID) : number 16 (u.str.filter (· ≠ ch '-')) = u := by
  have hhex : ∀ c ∈ fixed 16 32 u, c ≠ ch '-' := by
    intro c hc
    obtain ⟨d, hd, rfl⟩ := digit_of_mem_fixed (by norm_num) hc
    have hall : ∀ d < 16, digit d ≠ ch '-' := by decide
    exact hall d hd
  have hpower : (2 : ℕ) ^ 128 = 16 ^ 32 := by norm_num
  have hlt : u.val < 16 ^ 32 := lt_of_lt_of_eq u.isLt hpower
  rw [str, filter_groups hhex, number_fixed (by norm_num) le_rfl hlt]

theorem read_str (u : UUID) : read u.str = some u := by
  have hread : ∀ n, n = u.val → (if h : n < 2 ^ 128 then some (⟨n, h⟩ : UUID) else none) = some u := by
    rintro n rfl
    exact dif_pos u.isLt
  exact hread _ (number_str u)

/-- **A uuid** reads back. -/
theorem ofStr_str (other : Str → Option UUID) (u : UUID) : ofStr other u.str = some u :=
  fromText_write other (read_str u)

end UUID

end Trueup.Core
