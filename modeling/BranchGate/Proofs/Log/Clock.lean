import BranchGate.Log.Clock
import Mathlib.Order.Monotone.Basic
import Mathlib.Tactic.SplitIfs

/-! The years of dates, and so the times that have a written form. The year of a day is at least a
given one exactly if the day is not before the first of that year, in the Gregorian calendar. -/
namespace BranchGate.Log

/-- The days before a year, when years begin in March and the first one is 0. -/
def daysBefore (year : Int) : Int := 365 * year + year / 4 - year / 100 + year / 400

/-- The first day of a year, counted from 1970-01-01. -/
def firstDay (year : Int) : Int := daysBefore (year - 1) + 306 - 719468

section Year

variable {a b year d : Int} {c m n : Nat}

theorem daysBefore_succ (a : Int) : daysBefore a + 365 ≤ daysBefore (a + 1) := by
  unfold daysBefore
  omega

theorem daysBefore_succ_le (a : Int) : daysBefore (a + 1) ≤ daysBefore a + 366 := by
  unfold daysBefore
  omega

theorem daysBefore_le (le : a ≤ b) : daysBefore a ≤ daysBefore b := by
  unfold daysBefore
  omega

theorem daysBefore_era : daysBefore (a + 400 * b) = daysBefore a + 146097 * b := by
  unfold daysBefore
  omega

/-- The year of an era in which a day of it falls. -/
def yearOfEra (n : Nat) : Nat := (n - n / 1460 + n / 36524 - n / 146096) / 365

theorem yearOfEra_mono : Monotone yearOfEra := by
  refine monotone_nat_of_le_succ fun n => Nat.div_le_div_right ?_
  omega

/-- The year changes with the first day of a year. -/
theorem yearOfEra_first : ∀ c : Nat, c < 401 → c ≤ yearOfEra (daysBefore c).toNat ∧
    (c ≠ 0 → yearOfEra ((daysBefore c).toNat - 1) < c) := by decide +kernel

theorem le_yearOfEra (small : c < 401) : c ≤ yearOfEra n ↔ daysBefore c ≤ n := by
  obtain ⟨reached, before⟩ := yearOfEra_first c small
  constructor
  · intro late
    by_contra early
    have notFirst : c ≠ 0 := by
      rintro rfl
      exact early (Int.natCast_nonneg n)
    have bound : yearOfEra n ≤ yearOfEra ((daysBefore c).toNat - 1) := yearOfEra_mono (by omega)
    exact absurd (before notFirst) (by omega)
  · intro late
    exact Nat.le_trans reached (yearOfEra_mono (by omega))

theorem month_le_two {k : Nat} (inYear : k < 367) :
    (if (5 * k + 2) / 153 < 10 then (5 * k + 2) / 153 + 3 else (5 * k + 2) / 153 - 9) ≤ 2 ↔
      306 ≤ k := by
  split_ifs <;> omega

/-- A day by its year and its place in it, when years begin in March; the new year of the calendar
falls on the day of place 306. -/
theorem year_ofDay (d : Int) : ∃ year place, 0 ≤ place ∧ d + 719468 = daysBefore year + place ∧
    d + 719468 < daysBefore (year + 1) ∧
      (Date.ofDay d).year = if 306 ≤ place then year + 1 else year := by
  have era : (d + 719468).fdiv 146097 = (d + 719468) / 146097 :=
    Int.fdiv_eq_ediv_of_nonneg _ (by decide)
  have inEra : (d + 719468).fmod 146097 = (d + 719468) % 146097 :=
    Int.fmod_eq_emod_of_nonneg _ (by decide)
  obtain ⟨n, within, split⟩ : ∃ n : Nat, n < 146097 ∧ (d + 719468) % 146097 = n :=
    ⟨((d + 719468) % 146097).toNat, by omega, by omega⟩
  have small : yearOfEra n < 400 := by
    by_contra late
    have passed := (le_yearOfEra (show 400 < 401 by omega)).1 (Nat.le_of_not_lt late)
    have whole : daysBefore (400 : Nat) = 146097 := by decide
    omega
  have begun : daysBefore (yearOfEra n) ≤ n := (le_yearOfEra (by omega)).1 (Nat.le_refl _)
  have ended : (n : Int) < daysBefore (yearOfEra n + 1) := by
    have passed := le_yearOfEra (n := n) (show yearOfEra n + 1 < 401 by omega)
    push_cast at passed
    omega
  refine ⟨yearOfEra n + 400 * ((d + 719468) / 146097), n - daysBefore (yearOfEra n), by omega,
    ?_, ?_, ?_⟩
  · rw [daysBefore_era]
    omega
  · rw [Int.add_right_comm, daysBefore_era]
    omega
  · -- The place as the calendar counts it, in natural numbers.
    have short := daysBefore_succ_le (yearOfEra n)
    obtain ⟨k, place⟩ : ∃ k : Nat, n - (365 * yearOfEra n + yearOfEra n / 4 - yearOfEra n / 100) = k ∧
        n - daysBefore (yearOfEra n) = k := ⟨_, rfl, by unfold daysBefore at begun ⊢; omega⟩
    have turn := month_le_two (k := k) (by omega)
    have named : (n - n / 1460 + n / 36524 - n / 146096) / 365 = yearOfEra n := rfl
    unfold Date.ofDay
    simp only [era, inEra, split, Int.toNat_natCast, named, place.1, place.2, turn]
    split_ifs <;> omega

theorem le_year_ofDay : year ≤ (Date.ofDay d).year ↔ firstDay year ≤ d := by
  obtain ⟨y, place, positive, split, ended, same⟩ := year_ofDay d
  have next := daysBefore_succ (year - 1)
  rw [same]
  unfold firstDay
  rcases Int.lt_trichotomy (year - 1) y with before | rfl | after
  · have later := daysBefore_le (show year - 1 + 1 ≤ y by omega)
    split_ifs <;> omega
  · split_ifs <;> omega
  · have earlier := daysBefore_le (show y + 1 ≤ year - 1 by omega)
    split_ifs <;> omega

theorem le_year_ofSeconds (year seconds : Int) :
    year ≤ (Moment.ofSeconds seconds).date.year ↔ firstDay year * 86400 ≤ seconds := by
  rw [Moment.ofSeconds, le_year_ofDay, Int.fdiv_eq_ediv_of_nonneg _ (by decide),
    Int.le_ediv_iff_mul_le (by decide)]

end Year

section Written

variable {t : Time} {mark : Char}

/-- The times of the years 1 to 9999, in microseconds. -/
theorem isSome_isoTime? : (isoTime? t).isSome = true ↔
    -62135596800000000 ≤ t.micros ∧ t.micros < 253402300800000000 := by
  have first : firstDay 1 = -719162 := by decide
  have last : firstDay 10000 = 2932897 := by decide
  have begun := le_year_ofSeconds 1 (t.micros.fdiv 1000000)
  have ended := le_year_ofSeconds 10000 (t.micros.fdiv 1000000)
  rw [first] at begun
  rw [last] at ended
  have seconds : t.micros.fdiv 1000000 = t.micros / 1000000 :=
    Int.fdiv_eq_ediv_of_nonneg _ (by decide)
  unfold isoTime?
  simp only
  rw [seconds] at begun ended ⊢
  split
  next inside => exact iff_of_true rfl (by omega)
  next outside => exact iff_of_false (by simp) (by omega)

/-- The times of the years -2147481748 to 2147483647, in seconds. -/
theorem isSome_plainTime? : (plainTime? mark t).isSome = true ↔
    -67768040609740800 ≤ t.floor ∧ t.floor < 67767976233532800 := by
  have first : firstDay (-2147481748) = -784352321872 := by decide
  have last : firstDay 2147483648 = 784351576777 := by decide
  have begun := le_year_ofSeconds (-2147481748) t.floor
  have ended := le_year_ofSeconds 2147483648 t.floor
  rw [first] at begun
  rw [last] at ended
  unfold plainTime?
  simp only
  split
  next inside => exact iff_of_true rfl (by omega)
  next outside => exact iff_of_false (by simp) (by omega)

end Written
end BranchGate.Log
