import Mathlib.Algebra.Order.Group.Unbundled.Int
import Mathlib.Tactic.Ring
import Tabeld.Shared.CheckedInt

set_option autoImplicit false

/-!
# Frequencies and channels

A frequency is m * 10^e Hz. The band at 2.4 GHz is counted from channel 1, the one at 5 GHz from
channel 36, and the quotient that rounds to a channel truncates toward these two.
-/

namespace Tabeld.KernelNetlink

open CheckedInt

structure IwFreq where
  m : BitVec 32
  e : BitVec 16
  deriving DecidableEq

def enoent : Int := 2

def scaled : Nat → Int → Option Int
  | 0, mega => some mega
  | rounds + 1, mega => (div mega 10).bind (scaled rounds)

def channelFrom (base reference m mega step : Int) : Option Int :=
  (mul reference mega).bind fun centre =>
  (sub m centre).bind fun offset =>
  (div step 2).bind fun half =>
  (add offset half).bind fun rounded =>
  (div rounded step).bind fun steps =>
  add base steps

def belowFourteen (m mega step : Int) : Option Bool :=
  (mul 2484 mega).bind fun centre =>
  (div step 2).bind fun half =>
  (add centre half).map fun edge => decide (m < edge)

/-- The result and what `errno` is afterwards; none if the arithmetic has no defined result. -/
def freqToChan (freq : IwFreq) (errno : Int) : Option (Int × Int) :=
  let m := freq.m.toInt
  let e := freq.e.toInt
  if e = 0 ∧ 0 < m ∧ m < 254 then some (m, errno)
  else if e ≤ 6 then
    -- a negative exponent leaves the loop at once
    (scaled e.toNat 1000000).bind fun mega =>
    (mul 5 mega).bind fun step =>
    (channelFrom 1 2412 m mega step).bind fun c =>
    if 1 ≤ c ∧ c ≤ 13 then some (c, errno)
    else
      -- && does not look at its second operand below channel 14
      (if 14 ≤ c then belowFourteen m mega step else some false).bind fun fourteen =>
      if fourteen then some (14, errno)
      else
        (channelFrom 36 5180 m mega step).bind fun c =>
        if 34 ≤ c ∧ c ≤ 165 then some (c, errno) else some (-1, enoent)
  else some (-1, enoent)

def half (mega : Int) : Int := (5 * mega).tdiv 2

def channelNear (base reference m mega : Int) : Int :=
  base + (m - reference * mega + half mega).tdiv (5 * mega)

def channel (m mega : Int) : Int :=
  if 1 ≤ channelNear 1 2412 m mega ∧ channelNear 1 2412 m mega ≤ 13 then channelNear 1 2412 m mega
  else if 14 ≤ channelNear 1 2412 m mega ∧ m < 2484 * mega + half mega then 14
  else if 34 ≤ channelNear 36 5180 m mega ∧ channelNear 36 5180 m mega ≤ 165 then
    channelNear 36 5180 m mega
  else -1

theorem channelFrom_eq_some {base reference m mega c : Int} (pos : 0 < mega) :
    channelFrom base reference m mega (5 * mega) = some c →
      c = channelNear base reference m mega := by
  have nonzero : 5 * mega ≠ 0 := by omega
  simp only [channelFrom, mul, sub, add, checked_bind_eq_some, div_bind_eq_some nonzero,
    div_bind_eq_some (b := 2) (by decide)]
  rintro ⟨-, -, -, -, -, last⟩
  exact eq_of_checked last

theorem half_bounds {mega : Int} (pos : 0 < mega) :
    2 * half mega ≤ 5 * mega ∧ 5 * mega < 2 * half mega + 2 :=
  tdiv_nonneg_bounds (by decide) (by omega)

theorem div_half {mega : Int} (pos : 0 < mega) (scale : mega ≤ 100000) :
    div (5 * mega) 2 = some (half mega) := by
  have halves := half_bounds pos
  have inside : InRange (half mega) := ⟨by omega, by omega⟩
  exact div_of_inRange (by decide) inside

theorem channelFrom_of_inRange {base reference m mega : Int} (pos : 0 < mega)
    (scale : mega ≤ 100000) (small : 0 ≤ base ∧ base ≤ 36)
    (centre : 3 * mega ≤ reference * mega ∧ reference * mega ≤ 518000000)
    (range : reference * mega - 2 ^ 31 ≤ m ∧ m < 2 ^ 31) :
    channelFrom base reference m mega (5 * mega) = some (channelNear base reference m mega) := by
  have halves := half_bounds pos
  have quotient : -2 ^ 30 ≤ (m - reference * mega + half mega).tdiv (5 * mega) ∧
      ¬2 ^ 30 ≤ (m - reference * mega + half mega).tdiv (5 * mega) := by
    rw [le_tdiv_of_nonpos (by omega) (by decide), le_tdiv_of_pos (by omega) (by decide)]
    omega
  have two := div_half pos scale
  have step : div (m - reference * mega + half mega) (5 * mega) =
      some ((m - reference * mega + half mega).tdiv (5 * mega)) :=
    div_of_inRange (by omega) ⟨by omega, by omega⟩
  unfold channelFrom mul sub add
  rw [checked_bind ⟨by omega, by omega⟩, checked_bind ⟨by omega, by omega⟩, two,
    Option.bind_some, checked_bind ⟨by omega, by omega⟩, step, Option.bind_some]
  exact checked_of_inRange ⟨by omega, by omega⟩

theorem belowFourteen_of_scale {m mega : Int} (pos : 0 < mega) (scale : mega ≤ 100000) :
    belowFourteen m mega (5 * mega) = some (decide (m < 2484 * mega + half mega)) := by
  have halves := half_bounds pos
  have two := div_half pos scale
  have edge : add (2484 * mega) (half mega) = some (2484 * mega + half mega) :=
    checked_of_inRange ⟨by omega, by omega⟩
  unfold belowFourteen mul
  rw [checked_bind ⟨by omega, by omega⟩, two, Option.bind_some, edge, Option.map_some]

structure Scale (freq : IwFreq) (mega : Int) : Prop where
  exponent : 1 ≤ freq.e.toInt ∧ freq.e.toInt ≤ 6
  scaled : scaled freq.e.toInt.toNat 1000000 = some mega
  pos : 0 < mega
  bound : mega ≤ 100000
  hertz : 10 ^ freq.e.toInt.toNat * mega = 10 ^ 6

def IwFreq.mega (freq : IwFreq) : Int := 10 ^ (6 - freq.e.toInt.toNat)

theorem scale_mega {freq : IwFreq} (exponent : 1 ≤ freq.e.toInt ∧ freq.e.toInt ≤ 6) :
    Scale freq freq.mega := by
  have rounds : ∀ n < 7, 1 ≤ n → scaled n 1000000 = some (10 ^ (6 - n)) ∧
      (0 : Int) < 10 ^ (6 - n) ∧ (10 : Int) ^ (6 - n) ≤ 100000 ∧
      (10 : Int) ^ n * 10 ^ (6 - n) = 10 ^ 6 := by
    decide
  obtain ⟨value, pos, bound, hertz⟩ := rounds freq.e.toInt.toNat (by omega) (by omega)
  exact ⟨exponent, value, pos, bound, hertz⟩

theorem freqToChan_unfolded {freq : IwFreq} {mega errno : Int} (scale : Scale freq mega) :
    freqToChan freq errno =
      (channelFrom 1 2412 freq.m.toInt mega (5 * mega)).bind fun c =>
      if 1 ≤ c ∧ c ≤ 13 then some (c, errno)
      else
        (if 14 ≤ c then belowFourteen freq.m.toInt mega (5 * mega) else some false).bind
          fun fourteen =>
        if fourteen then some (14, errno)
        else
          (channelFrom 36 5180 freq.m.toInt mega (5 * mega)).bind fun c =>
          if 34 ≤ c ∧ c ≤ 165 then some (c, errno) else some (-1, enoent) := by
  obtain ⟨exponent, value, pos, bound, -⟩ := scale
  have first : ¬(freq.e.toInt = 0 ∧ 0 < freq.m.toInt ∧ freq.m.toInt < 254) := by omega
  have step : InRange (5 * mega) := ⟨by omega, by omega⟩
  rw [freqToChan, if_neg first, if_pos exponent.2, value, Option.bind_some, mul,
    checked_bind step]

theorem exists_freqToChan {freq : IwFreq} {mega : Int} (scale : Scale freq mega)
    (low : 5180 * mega - 2 ^ 31 ≤ freq.m.toInt) (errno : Int) :
    ∃ errno', freqToChan freq errno = some (channel freq.m.toInt mega, errno') := by
  have high : freq.m.toInt < 2 ^ 31 := BitVec.toInt_lt
  have pos := scale.pos
  have bound := scale.bound
  have low : channelFrom 1 2412 freq.m.toInt mega (5 * mega) =
      some (channelNear 1 2412 freq.m.toInt mega) :=
    channelFrom_of_inRange pos bound (by decide) ⟨by omega, by omega⟩ ⟨by omega, high⟩
  have high : channelFrom 36 5180 freq.m.toInt mega (5 * mega) =
      some (channelNear 36 5180 freq.m.toInt mega) :=
    channelFrom_of_inRange pos bound (by decide) ⟨by omega, by omega⟩ ⟨by omega, high⟩
  have between : (if 14 ≤ channelNear 1 2412 freq.m.toInt mega
      then belowFourteen freq.m.toInt mega (5 * mega) else some false) =
      some (decide (14 ≤ channelNear 1 2412 freq.m.toInt mega ∧
        freq.m.toInt < 2484 * mega + half mega)) := by
    rw [belowFourteen_of_scale pos bound]
    split
    next above => simp [above]
    next below => simp [below]
  rw [freqToChan_unfolded scale, low, Option.bind_some, between, Option.bind_some, high,
    Option.bind_some, channel]
  simp only [decide_eq_true_iff]
  split
  next => exact ⟨_, rfl⟩
  next =>
    split
    next => exact ⟨_, rfl⟩
    next => split <;> exact ⟨_, rfl⟩

def BelowBand (m mega : Int) : Prop :=
  (2412 * mega - half mega - 5 * mega < m ∧ m < 2412 * mega - half mega) ∨
    (5180 * mega - half mega - 3 * (5 * mega) < m ∧ m < 5180 * mega - half mega ∧
      ¬5 * mega ∣ m - (5180 * mega - half mega))

def Centre (c mhz : Int) : Prop :=
  1 ≤ c ∧ c ≤ 13 ∧ mhz = 2407 + 5 * c ∨ c = 14 ∧ mhz = 2484 ∨
    34 ≤ c ∧ c ≤ 165 ∧ mhz = 5000 + 5 * c

section Units

variable {m mega : Int} (pos : 0 < mega)
include pos

theorem low_iff : 1 ≤ channelNear 1 2412 m mega ∧ channelNear 1 2412 m mega ≤ 13 ↔
    2412 * mega - half mega - 5 * mega < m ∧ m < 2477 * mega - half mega := by
  have low := le_tdiv_of_nonpos (n := m - 2412 * mega + half mega) (d := 5 * mega) (k := 0)
    (by omega) (by decide)
  have high := le_tdiv_of_pos (n := m - 2412 * mega + half mega) (d := 5 * mega) (k := 13)
    (by omega) (by decide)
  unfold channelNear
  omega

theorem above_iff : 14 ≤ channelNear 1 2412 m mega ↔ 2477 * mega - half mega ≤ m := by
  have high := le_tdiv_of_pos (n := m - 2412 * mega + half mega) (d := 5 * mega) (k := 13)
    (by omega) (by decide)
  unfold channelNear
  omega

theorem high_iff : 34 ≤ channelNear 36 5180 m mega ∧ channelNear 36 5180 m mega ≤ 165 ↔
    5180 * mega - half mega - 3 * (5 * mega) < m ∧ m < 5830 * mega - half mega := by
  have low := le_tdiv_of_nonpos (n := m - 5180 * mega + half mega) (d := 5 * mega) (k := -2)
    (by omega) (by decide)
  have high := le_tdiv_of_pos (n := m - 5180 * mega + half mega) (d := 5 * mega) (k := 130)
    (by omega) (by decide)
  unfold channelNear
  omega

theorem distance_iff {base reference : Int} :
    (-(5 * mega) ≤ 2 * (m - (reference + 5 * (channelNear base reference m mega - base)) * mega) ∧
      2 * (m - (reference + 5 * (channelNear base reference m mega - base)) * mega) ≤ 5 * mega) ↔
    (0 ≤ m - reference * mega + half mega ∨
      5 * mega ∣ m - (reference * mega - half mega)) := by
  have halves := half_bounds pos
  have rounded : m - (reference * mega - half mega) = m - reference * mega + half mega := by omega
  have units (q : Int) : (reference + 5 * (base + q - base)) * mega =
      reference * mega + 5 * mega * q := by
    have steps : base + q - base = q := by omega
    rw [steps, Int.add_mul, Int.mul_right_comm]
  rw [channelNear, units, rounded]
  generalize m - reference * mega + half mega = n at rounded ⊢
  by_cases nonneg : 0 ≤ n
  · have bounds := tdiv_nonneg_bounds (d := 5 * mega) (by omega) nonneg
    exact iff_of_true (by omega) (Or.inl nonneg)
  · have bounds := tdiv_neg_bounds (d := 5 * mega) (by omega) (Int.not_le.mp nonneg)
    constructor
    · intro near
      exact Or.inr ⟨n.tdiv (5 * mega), by omega⟩
    · rintro (positive | divides)
      · exact absurd positive nonneg
      · have exactly := Int.mul_tdiv_cancel' divides
        omega

end Units

theorem freqToChan_underflow {freq : IwFreq} {mega : Int} (scale : Scale freq mega)
    (low : freq.m.toInt < 5180 * mega - 2 ^ 31) (errno : Int) :
    freqToChan freq errno = none := by
  have pos := scale.pos
  have bound := scale.bound
  have high : channelFrom 36 5180 freq.m.toInt mega (5 * mega) = none := by
    have difference : ¬InRange (freq.m.toInt - 5180 * mega) := fun inside => by
      have least := inside.1
      omega
    simp [channelFrom, mul, sub, checked, difference]
  rw [freqToChan_unfolded scale, Option.bind_eq_none_iff]
  intro c first
  -- so far below the bands, channel 14 is not looked at either
  have near := channelFrom_eq_some pos first
  have one := low_iff (m := freq.m.toInt) pos
  have fourteen := above_iff (m := freq.m.toInt) pos
  have halves := half_bounds pos
  rw [if_neg (by omega), if_neg (by omega), high]
  simp

theorem freqToChan_eq_some {freq : IwFreq} {mega errno : Int} (scale : Scale freq mega)
    {r : Int × Int} (returned : freqToChan freq errno = some r) :
    r.1 = channel freq.m.toInt mega := by
  rcases Int.lt_or_le freq.m.toInt (5180 * mega - 2 ^ 31) with far | low
  · rw [freqToChan_underflow scale far] at returned
    contradiction
  · obtain ⟨errno', value⟩ := exists_freqToChan scale low errno
    rw [value, Option.some.injEq] at returned
    rw [← returned]

theorem channel_cases {m mega : Int} (pos : 0 < mega) :
    (2412 * mega - half mega - 5 * mega < m ∧ m < 2477 * mega - half mega ∧
      1 ≤ channel m mega ∧ channel m mega ≤ 13 ∧ channel m mega = channelNear 1 2412 m mega) ∨
    (2477 * mega - half mega ≤ m ∧ m < 2484 * mega + half mega ∧ channel m mega = 14) ∨
    (2484 * mega + half mega ≤ m ∧ 5180 * mega - half mega - 3 * (5 * mega) < m ∧
      34 ≤ channel m mega ∧ channel m mega ≤ 165 ∧
      channel m mega = channelNear 36 5180 m mega) ∨
    channel m mega = -1 := by
  have halves := half_bounds pos
  have low := low_iff (m := m) pos
  have above := above_iff (m := m) pos
  have high := high_iff (m := m) pos
  unfold channel
  split
  next inside => exact Or.inl ⟨(low.mp inside).1, (low.mp inside).2, inside.1, inside.2, rfl⟩
  next outside =>
    split
    next fourteen => exact Or.inr (Or.inl ⟨above.mp fourteen.1, fourteen.2, rfl⟩)
    next other =>
      split
      next inside =>
        obtain ⟨first, last⟩ := high.mp inside
        have past : 2484 * mega + half mega ≤ m := by
          rw [above] at other
          omega
        exact Or.inr (Or.inr (Or.inl ⟨past, first, inside.1, inside.2, rfl⟩))
      next => exact Or.inr (Or.inr (Or.inr rfl))

def Near (hertz mhz : Int) : Prop :=
  -(5 * 10 ^ 6) ≤ 2 * (hertz - mhz * 10 ^ 6) ∧ 2 * (hertz - mhz * 10 ^ 6) ≤ 5 * 10 ^ 6

def IwFreq.hertz (freq : IwFreq) : Int := freq.m.toInt * 10 ^ freq.e.toInt.toNat

structure Accurate (freq : IwFreq) : Prop where
  centre : ∀ errno r, freqToChan freq errno = some r →
    ∀ c mhz, Centre c mhz → freq.hertz = mhz * 10 ^ 6 → r.1 = c
  near : ∀ errno r, freqToChan freq errno = some r → r.1 ≠ 14 →
    ∀ mhz, Centre r.1 mhz → Near freq.hertz mhz

theorem Scale.hertz_eq {freq : IwFreq} {mega : Int} (scale : Scale freq mega) (mhz : Int) :
    freq.hertz = mhz * 10 ^ 6 ↔ freq.m.toInt = mhz * mega := by
  have positive : (10 : Int) ^ freq.e.toInt.toNat ≠ 0 := Int.ne_of_gt (Int.pow_pos (by decide))
  rw [IwFreq.hertz, ← scale.hertz, Int.mul_comm (10 ^ _) mega, ← Int.mul_assoc]
  exact Int.mul_eq_mul_right_iff positive

theorem Scale.near_iff {freq : IwFreq} {mega : Int} (scale : Scale freq mega) (mhz : Int) :
    Near freq.hertz mhz ↔ -(5 * mega) ≤ 2 * (freq.m.toInt - mhz * mega) ∧
      2 * (freq.m.toInt - mhz * mega) ≤ 5 * mega := by
  have positive : (0 : Int) < 10 ^ freq.e.toInt.toNat := Int.pow_pos (by decide)
  have hertz := scale.hertz
  unfold Near IwFreq.hertz
  rw [← hertz]
  generalize (10 : Int) ^ freq.e.toInt.toNat = unit at positive hertz ⊢
  have difference : 2 * (freq.m.toInt * unit - mhz * (unit * mega)) =
      unit * (2 * (freq.m.toInt - mhz * mega)) := by ring
  have step : 5 * (unit * mega) = unit * (5 * mega) := by ring
  rw [difference, step, ← Int.mul_neg]
  exact and_congr (Int.mul_le_mul_left positive) (Int.mul_le_mul_left positive)

theorem channelNear_centre {base reference c m mega : Int} (pos : 0 < mega) (above : base ≤ c)
    (here : m = (reference + 5 * (c - base)) * mega) : channelNear base reference m mega = c := by
  have halves := half_bounds pos
  have offset : m - reference * mega + half mega = 5 * mega * (c - base) + half mega := by
    rw [here]
    ring
  have product : 0 ≤ 5 * mega * (c - base) := Int.mul_nonneg (by omega) (by omega)
  have steps : (m - reference * mega + half mega).tdiv (5 * mega) = c - base :=
    tdiv_unique (by omega) (by omega) (by omega) (by omega)
  rw [channelNear, steps]
  omega

theorem belowBand_centre {c m mega : Int} (pos : 0 < mega) (low : 34 ≤ c ∧ c < 36)
    (here : m = (5000 + 5 * c) * mega) : BelowBand m mega := by
  have halves := half_bounds pos
  have apart : ¬5 * mega ∣ m - (5180 * mega - half mega) := by
    rintro ⟨steps, same⟩
    -- half a step would be a whole number of steps
    have offset : m - 5180 * mega = 5 * mega * (c - 36) := by
      rw [here]
      ring
    have whole : half mega = 5 * mega * (steps - (c - 36)) := by
      rw [Int.mul_sub]
      omega
    have large := Int.le_of_dvd (by omega) (Dvd.intro _ whole.symm)
    omega
  obtain rfl | rfl : c = 34 ∨ c = 35 := by omega
  · exact Or.inr ⟨by omega, by omega, apart⟩
  · exact Or.inr ⟨by omega, by omega, apart⟩

theorem channel_centre {c mhz m mega : Int} (pos : 0 < mega) (supported : Centre c mhz)
    (here : m = mhz * mega) (clear : ¬BelowBand m mega) : channel m mega = c := by
  have halves := half_bounds pos
  rcases supported with ⟨first, last, rfl⟩ | ⟨rfl, rfl⟩ | ⟨first, last, rfl⟩
  · have near : channelNear 1 2412 m mega = c :=
      channelNear_centre pos first (by rw [here]; ring)
    rw [channel, near, if_pos ⟨first, last⟩]
  · have above := (above_iff (m := m) pos).mpr (by omega)
    rw [channel, if_neg (by omega), if_pos ⟨above, by omega⟩]
  · by_cases low : c < 36
    · exact absurd (belowBand_centre pos ⟨first, low⟩ here) clear
    · have near : channelNear 36 5180 m mega = c :=
        channelNear_centre pos (by omega) (by rw [here]; ring)
      have past : 5180 * mega ≤ m := by
        rw [here]
        exact Int.mul_le_mul_of_nonneg_right (by omega) (by omega)
      have above := (above_iff (m := m) pos).mpr (by omega)
      rw [channel, near, if_neg (by omega), if_neg (by omega), if_pos ⟨first, last⟩]

theorem accurate_of_clear {freq : IwFreq} {mega : Int} (scale : Scale freq mega)
    (clear : ¬BelowBand freq.m.toInt mega) : Accurate freq := by
  have pos := scale.pos
  have halves := half_bounds pos
  constructor
  · intro errno r returned c mhz supported here
    rw [freqToChan_eq_some scale returned]
    exact channel_centre pos supported ((scale.hertz_eq mhz).mp here) clear
  · intro errno r returned other mhz supported
    rw [freqToChan_eq_some scale returned] at other supported
    rw [scale.near_iff]
    rcases channel_cases (m := freq.m.toInt) pos with
      ⟨first, -, least, most, low⟩ | ⟨-, -, fourteen⟩ | ⟨-, first, least, most, high⟩ | none
    · have mhz_eq : mhz = 2412 + 5 * (channel freq.m.toInt mega - 1) := by
        unfold Centre at supported
        omega
      have above : 2412 * mega - half mega ≤ freq.m.toInt := by
        by_contra gap
        exact clear (Or.inl ⟨first, by omega⟩)
      rw [mhz_eq, low]
      exact (distance_iff pos).mpr (Or.inl (by omega))
    · exact absurd fourteen other
    · have mhz_eq : mhz = 5180 + 5 * (channel freq.m.toInt mega - 36) := by
        unfold Centre at supported
        omega
      rw [mhz_eq, high]
      apply (distance_iff pos).mpr
      by_cases above : 5180 * mega - half mega ≤ freq.m.toInt
      · exact Or.inl (by omega)
      · by_contra gap
        rw [not_or] at gap
        exact clear (Or.inr ⟨first, by omega, gap.2⟩)
    · unfold Centre at supported
      omega

theorem clear_of_accurate {freq : IwFreq} {mega : Int} (scale : Scale freq mega)
    (accurate : Accurate freq) : ¬BelowBand freq.m.toInt mega := by
  have pos := scale.pos
  have halves := half_bounds pos
  intro gap
  have bound := scale.bound
  have nonneg : 0 ≤ freq.m.toInt := by
    rcases gap with ⟨low, -⟩ | ⟨low, -, -⟩ <;> omega
  obtain ⟨errno', returned⟩ := exists_freqToChan scale (by omega) 0
  have near := accurate.near 0 _ returned
  simp only at near
  rcases gap with ⟨first, last⟩ | ⟨first, last, apart⟩
  · have inside := (low_iff (m := freq.m.toInt) pos).mpr ⟨first, by omega⟩
    have low : channel freq.m.toInt mega = channelNear 1 2412 freq.m.toInt mega := if_pos inside
    have distance := near (by omega) (2412 + 5 * (channel freq.m.toInt mega - 1))
      (by unfold Centre; omega)
    rw [scale.near_iff, low, distance_iff pos] at distance
    rcases distance with above | divides
    · omega
    · -- no multiple of 5 MHz lies in a range of less than 5 MHz
      have zero := Int.eq_zero_of_abs_lt_dvd divides (abs_lt.mpr ⟨by omega, by omega⟩)
      omega
  · have high := (high_iff (m := freq.m.toInt) pos).mpr ⟨first, by omega⟩
    have same : channel freq.m.toInt mega = channelNear 36 5180 freq.m.toInt mega := by
      have low := (low_iff (m := freq.m.toInt) pos)
      have above := (above_iff (m := freq.m.toInt) pos)
      rw [channel, if_neg (by omega), if_neg (by omega), if_pos high]
    have distance := near (by omega) (5180 + 5 * (channel freq.m.toInt mega - 36))
      (by unfold Centre; omega)
    rw [scale.near_iff, same, distance_iff pos] at distance
    rcases distance with above | divides
    · omega
    · exact apart divides

/-- The frequency is below one of the bands: within 5 MHz of the lower edge of channel 1, or within
15 MHz of that of channel 36 and not a multiple of 5 MHz away. -/
def IwFreq.Misrounded (freq : IwFreq) : Prop := BelowBand freq.m.toInt freq.mega

theorem accurate_iff (freq : IwFreq) (exponent : 1 ≤ freq.e.toInt ∧ freq.e.toInt ≤ 6) :
    Accurate freq ↔ ¬freq.Misrounded :=
  ⟨clear_of_accurate (scale_mega exponent), accurate_of_clear (scale_mega exponent)⟩

def mhz2437 : IwFreq := { m := 2437, e := 6 }

theorem accurate_iff_mhz2437 : Accurate mhz2437 ↔ ¬mhz2437.Misrounded :=
  accurate_iff mhz2437 (by decide)

def mhz5170 : IwFreq := { m := 5170, e := 6 }

theorem not_accurate_mhz5170 :
    (1 ≤ mhz5170.e.toInt ∧ mhz5170.e.toInt ≤ 6) ∧ ¬Accurate mhz5170 := by
  refine ⟨by decide, ?_⟩
  intro accurate
  have channel := accurate.centre 0 (35, 0) (by decide) 34 5170 (by unfold Centre; decide)
    (by decide)
  exact absurd channel (by decide)

def NoOverflow (freq : IwFreq) : Prop := ∀ errno, (freqToChan freq errno).isSome

theorem freqToChan_unscaled {freq : IwFreq} (exponent : freq.e.toInt ≤ 0)
    (frequency : ¬(freq.e.toInt = 0 ∧ 0 < freq.m.toInt ∧ freq.m.toInt < 254)) (errno : Int) :
    freqToChan freq errno = none := by
  have rounds : freq.e.toInt.toNat = 0 := by omega
  have step : mul 5 1000000 = some 5000000 := by decide
  have centre : mul 2412 1000000 = none := by decide
  rw [freqToChan, if_neg frequency, if_pos (by omega), rounds, scaled, Option.bind_some, step,
    Option.bind_some, channelFrom, centre, Option.bind_none, Option.bind_none]

theorem noOverflow_iff (freq : IwFreq) : NoOverflow freq ↔
    freq.e.toInt = 0 ∧ 0 < freq.m.toInt ∧ freq.m.toInt < 254 ∨
      1 ≤ freq.e.toInt ∧ freq.e.toInt ≤ 6 ∧ 5180 * freq.mega - 2 ^ 31 ≤ freq.m.toInt ∨
      6 < freq.e.toInt := by
  unfold NoOverflow
  by_cases direct : freq.e.toInt = 0 ∧ 0 < freq.m.toInt ∧ freq.m.toInt < 254
  · exact iff_of_true (fun errno => by rw [freqToChan, if_pos direct]; rfl) (Or.inl direct)
  rcases Int.lt_or_le 6 freq.e.toInt with large | small
  · have unsupported : ¬freq.e.toInt ≤ 6 := Int.not_le.mpr large
    exact iff_of_true (fun errno => by rw [freqToChan, if_neg direct, if_neg unsupported]; rfl)
      (Or.inr (Or.inr large))
  rcases Int.lt_or_le 0 freq.e.toInt with positive | unscaled
  · have scale := scale_mega ⟨positive, small⟩
    by_cases low : 5180 * freq.mega - 2 ^ 31 ≤ freq.m.toInt
    · refine iff_of_true (fun errno => ?_) (Or.inr (Or.inl ⟨positive, small, low⟩))
      obtain ⟨errno', returned⟩ := exists_freqToChan scale low errno
      rw [returned]
      rfl
    · refine iff_of_false (fun computed => ?_) (by omega)
      have result := computed 0
      rw [freqToChan_underflow scale (Int.not_le.mp low)] at result
      contradiction
  · refine iff_of_false (fun computed => ?_) (by omega)
    have result := computed 0
    rw [freqToChan_unscaled unscaled direct] at result
    contradiction

def noFrequency : IwFreq := { m := 0, e := 0 }

theorem not_noOverflow_noFrequency : ¬NoOverflow noFrequency := by
  intro computed
  exact absurd (computed 0) (by decide)

end Tabeld.KernelNetlink
