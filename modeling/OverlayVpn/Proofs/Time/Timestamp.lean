import Mathlib.Order.Lattice
import OverlayVpn.Time.Timestamp

set_option autoImplicit false

/-! # The order of moments

Moments are compared field by field, which is a total order. Of moments that are told as seconds and
nanoseconds after the start of 1970, the one with fewer seconds is the earlier, and of two in the
same second the one with fewer nanoseconds (`ofUnix?_le_iff`). For the dates this rests on where a
year starts among the days of its era (`firstDay_yearOfEra`): of two days the later one lies in a
later year, counted from March, or further on in the same one. -/

namespace OverlayVpn

namespace Timestamp

/-! ## Field by field -/

theorem orderedFields_cons {a b : Int} {as bs : List Int} :
    orderedFields (a :: as) (b :: bs) = true ↔ a < b ∨ a = b ∧ orderedFields as bs = true := by
  simp [orderedFields]

theorem orderedFields_self (as : List Int) : orderedFields as as = true := by
  induction as with
  | nil => rfl
  | cons a as ih => exact orderedFields_cons.mpr (Or.inr ⟨rfl, ih⟩)

theorem orderedFields_total (as bs : List Int) :
    orderedFields as bs = true ∨ orderedFields bs as = true := by
  induction as generalizing bs with
  | nil => exact Or.inl rfl
  | cons a as ih =>
      cases bs with
      | nil => exact Or.inr rfl
      | cons b bs =>
          rw [orderedFields_cons, orderedFields_cons]
          have := ih bs
          grind

theorem orderedFields_trans {as bs cs : List Int} (hab : orderedFields as bs = true)
    (hbc : orderedFields bs cs = true) : orderedFields as cs = true := by
  induction as generalizing bs cs with
  | nil => rfl
  | cons a as ih =>
      cases bs with
      | nil => cases hab
      | cons b bs =>
          cases cs with
          | nil => cases hbc
          | cons c cs =>
              rw [orderedFields_cons] at hab hbc ⊢
              rcases hab with hab | ⟨rfl, hab⟩
              · exact Or.inl (by omega)
              · exact hbc.imp_right fun ⟨heq, hbc⟩ => ⟨heq, ih hab hbc⟩

theorem orderedFields_antisymm {as bs : List Int} (hab : orderedFields as bs = true)
    (hba : orderedFields bs as = true) : as = bs := by
  induction as generalizing bs with
  | nil =>
      cases bs with
      | nil => rfl
      | cons b bs => cases hba
  | cons a as ih =>
      cases bs with
      | nil => cases hab
      | cons b bs =>
          rw [orderedFields_cons] at hab hba
          rcases hab with hab | ⟨rfl, hab⟩
          · omega
          · have hrest : orderedFields bs as = true := by
              rcases hba with hba | ⟨-, hba⟩
              · omega
              · exact hba
            rw [ih hab hrest]

/-- A moment is told by its fields. -/
theorem fields_injective {a b : Timestamp} (h : a.fields = b.fields) : a = b := by
  obtain ⟨⟨year, month, day⟩, ⟨hour, minute, second, nano⟩, hdate, htime⟩ := a
  obtain ⟨⟨year', month', day'⟩, ⟨hour', minute', second', nano'⟩, hdate', htime'⟩ := b
  simp only [fields, List.cons.injEq, Int.ofNat_inj, and_true] at h
  obtain ⟨rfl, rfl, rfl, rfl, rfl, rfl, rfl⟩ := h
  rfl

/-- Moments in their order. -/
instance : LinearOrder Timestamp where
  le a b := a.notAfter b = true
  le_refl a := orderedFields_self a.fields
  le_trans _ _ _ hab hbc := orderedFields_trans hab hbc
  le_antisymm _ _ hab hba := fields_injective (orderedFields_antisymm hab hba)
  le_total a b := orderedFields_total a.fields b.fields
  toDecidableLE a b := inferInstanceAs (Decidable (a.notAfter b = true))

theorem later_eq_max (a b : Timestamp) : a.later b = max a b := rfl

end Timestamp

/-! ## Days and dates -/

namespace Calendar

/-- The year of an era that a day of the era lies in, counted from March. -/
def yearOfEra (day : Nat) : Nat := (day - day / 1460 + day / 36524 - day / 146096) / 365

/-- The first day of a year of an era. -/
def firstDay (year : Nat) : Nat := 365 * year + year / 4 - year / 100

/-- The month that a day of a year lies in; March is 0. -/
def monthOfYear (day : Nat) : Nat := (5 * day + 2) / 153

/-- A day lies in the year that it is counted to. -/
theorem firstDay_yearOfEra {day : Nat} (h : day < 146097) :
    firstDay (yearOfEra day) ≤ day ∧ day ≤ firstDay (yearOfEra day) + 365 := by
  have hcentury : day / 36524 = 0 ∨ day / 36524 = 1 ∨ day / 36524 = 2 ∨ day / 36524 = 3 ∨
      day = 146096 := by omega
  rcases hcentury with hc | hc | hc | hc | rfl
  -- the last day of the era is the only one in a fifth century
  case inr.inr.inr.inr => decide
  all_goals
    have hlast : day / 146096 = 0 := by omega
    unfold yearOfEra firstDay
    rw [hc, hlast]
    generalize hcycle : day / 1460 = cycle
    generalize hyear : (day - cycle + _ - 0) / 365 = year
    have hleap : year / 4 ≤ cycle ∧ cycle ≤ year / 4 + 1 := by omega
    have hcentury : year / 100 = day / 36524 := by omega
    rw [hcentury, hc]
    omega

theorem yearOfEra_lt {day : Nat} (h : day < 146097) : yearOfEra day < 400 := by
  unfold yearOfEra
  omega

/-- Later days lie in no earlier years. -/
theorem yearOfEra_mono {day day' : Nat} (h : day ≤ day') : yearOfEra day ≤ yearOfEra day' := by
  induction h with
  | refl => exact Nat.le_refl _
  | step _ ih =>
      refine Nat.le_trans ih (Nat.div_le_div_right ?_)
      omega

/-- The era that a day after 1970 lies in. -/
def eraOf (days : Int) : Int := (days + 719468) / 146097

/-- The day of its era that a day after 1970 is. -/
def dayOfEra (days : Int) : Nat := ((days + 719468) % 146097).toNat

/-- The day of its year, counted from March, that a day after 1970 is. -/
def dayOfYear (days : Int) : Nat := dayOfEra days - firstDay (yearOfEra (dayOfEra days))

theorem dayOfEra_lt (days : Int) : dayOfEra days < 146097 := by
  unfold dayOfEra
  omega

theorem monthOfYear_lt (days : Int) : monthOfYear (dayOfYear days) < 12 := by
  have hin := firstDay_yearOfEra (dayOfEra_lt days)
  unfold monthOfYear dayOfYear
  omega

/-- The month of a date, counted from the start of the calendar. -/
def Date.months (d : Date) : Int := 12 * d.year + d.month

theorem month_ofDays (days : Int) :
    1 ≤ (Date.ofDays days).month ∧ (Date.ofDays days).month ≤ 12 := by
  have hmonth := monthOfYear_lt days
  have heq : (Date.ofDays days).month = if monthOfYear (dayOfYear days) < 10 then
      monthOfYear (dayOfYear days) + 3 else monthOfYear (dayOfYear days) - 9 := rfl
  rw [heq]
  split <;> omega

theorem months_ofDays (days : Int) :
    (Date.ofDays days).months =
      12 * (yearOfEra (dayOfEra days) + eraOf days * 400) + monthOfYear (dayOfYear days) + 3 := by
  have hmonth := monthOfYear_lt days
  have hyear : (Date.ofDays days).year = (yearOfEra (dayOfEra days) : Int) + eraOf days * 400 +
      if (Date.ofDays days).month ≤ 2 then 1 else 0 := rfl
  have heq : (Date.ofDays days).month = if monthOfYear (dayOfYear days) < 10 then
      monthOfYear (dayOfYear days) + 3 else monthOfYear (dayOfYear days) - 9 := rfl
  rw [Date.months, hyear, heq]
  split <;> split <;> omega

theorem day_ofDays (days : Int) :
    (Date.ofDays days).day =
      dayOfYear days - (153 * monthOfYear (dayOfYear days) + 2) / 5 + 1 := rfl

/-- **Of two days the later one has the later date.** -/
theorem ofDays_lt {days days' : Int} (h : days < days') :
    (Date.ofDays days).months < (Date.ofDays days').months ∨
      (Date.ofDays days).months = (Date.ofDays days').months ∧
        (Date.ofDays days).day < (Date.ofDays days').day := by
  rw [months_ofDays, months_ofDays, day_ofDays, day_ofDays]
  have hmonth := monthOfYear_lt days
  have hyear := yearOfEra_lt (dayOfEra_lt days)
  have hera : eraOf days < eraOf days' ∨
      eraOf days = eraOf days' ∧ dayOfEra days < dayOfEra days' := by
    unfold eraOf dayOfEra
    omega
  rcases hera with hera | ⟨hera, hday⟩
  · left
    omega
  · rw [hera]
    rcases Nat.lt_or_eq_of_le (yearOfEra_mono (Nat.le_of_lt hday)) with hyear | hyear
    · left
      omega
    · -- within a year the months follow each other, and so do the days of a month
      have hstart := firstDay_yearOfEra (dayOfEra_lt days)
      have hlater : dayOfYear days < dayOfYear days' := by
        unfold dayOfYear
        rw [← hyear]
        omega
      have hmonths : monthOfYear (dayOfYear days) ≤ monthOfYear (dayOfYear days') :=
        Nat.div_le_div_right (by omega)
      have hfirst : (153 * monthOfYear (dayOfYear days) + 2) / 5 ≤ dayOfYear days := by
        unfold monthOfYear
        omega
      rw [hyear]
      rcases Nat.lt_or_eq_of_le hmonths with hmonths | hmonths
      · left
        omega
      · right
        rw [← hmonths]
        omega

end Calendar

/-! ## Seconds and moments -/

namespace Timestamp

open Calendar

variable {seconds seconds' : Int} {nanos nanos' : Nat} {a b : Timestamp}

/-- The fields of a moment that is told in seconds. -/
theorem fields_of_ofUnix? (h : ofUnix? seconds nanos = some a) :
    a.date = .ofDays (seconds / 86400) ∧
      a.time = ⟨(seconds % 86400).toNat / 3600, (seconds % 86400).toNat / 60 % 60,
        (seconds % 86400).toNat % 60, nanos⟩ := by
  simp only [ofUnix?, ofFields?] at h
  split at h
  · obtain rfl := Option.some.inj h
    exact ⟨rfl, rfl⟩
  · cases h

theorem lt_of_ofUnix? (ha : ofUnix? seconds nanos = some a) (hb : ofUnix? seconds' nanos' = some b)
    (h : seconds < seconds' ∨ seconds = seconds' ∧ nanos < nanos') : a < b := by
  obtain ⟨hdate, htime⟩ := fields_of_ofUnix? ha
  obtain ⟨hdate', htime'⟩ := fields_of_ofUnix? hb
  rw [← not_le]
  change ¬b.notAfter a = true
  rw [notAfter, fields, fields, hdate, htime, hdate', htime']
  simp only [orderedFields_cons]
  have hmonth := month_ofDays (seconds / 86400)
  have hmonth' := month_ofDays (seconds' / 86400)
  have hdays : seconds / 86400 < seconds' / 86400 ∨ seconds / 86400 = seconds' / 86400 ∧
      (seconds % 86400 < seconds' % 86400 ∨ seconds = seconds' ∧ nanos < nanos') := by omega
  rcases hdays with hdays | ⟨hdays, hrest⟩
  · have hlater := ofDays_lt hdays
    unfold Date.months at hlater
    omega
  · rw [hdays]
    omega

/-- **The order of moments is the order of their seconds and nanoseconds.** -/
theorem ofUnix?_le_iff (ha : ofUnix? seconds nanos = some a) (hb : ofUnix? seconds' nanos' = some b) :
    a ≤ b ↔ seconds < seconds' ∨ seconds = seconds' ∧ nanos ≤ nanos' := by
  constructor
  · intro hle
    by_contra hnot
    have hlt : b < a := lt_of_ofUnix? hb ha (by omega)
    exact absurd hle (not_le.mpr hlt)
  · rintro (h | ⟨rfl, h⟩)
    · exact le_of_lt (lt_of_ofUnix? ha hb (Or.inl h))
    · rcases Nat.lt_or_eq_of_le h with hlt | rfl
      · exact le_of_lt (lt_of_ofUnix? ha hb (Or.inr ⟨rfl, hlt⟩))
      · rw [ha] at hb
        exact le_of_eq (Option.some.inj hb)

end Timestamp

end OverlayVpn
