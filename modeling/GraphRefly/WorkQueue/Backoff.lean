import GraphRefly.WorkQueue.Queue
import Mathlib.Data.Nat.Fib.Basic

/-!
# Backoff Delays

What the delay of a retry policy is, compared with the formula it is named
after, computed without any bound and clamped once at the end.

A linear delay is computed in 64 bits throughout, and every intermediate
saturation is at the bound the result is clamped to anyway. An exponential and
a Fibonacci delay are the product of a base and a multiplier, and the
multiplier is computed in 32 bits: it stops growing there, while the product
would have had 64 bits to grow in.

## Main definitions

* `BackoffPolicy.formula`: The delay in unbounded arithmetic.
* `BackoffPolicy.exactDelay`: The formula, clamped to 64 bits and to the policy.
* `BackoffPolicy.MultiplierFits`: The 32 bits of the multiplier suffice.

## Theorems

* `fibonacci_eq`: The loop computes the Fibonacci number, clamped to 32 bits.
* `delayMs_mono`, `delayMs_le_max`: Delays grow and stay below the maximum.
* `delayMs_exact_iff`: The delay is the formula's exactly when the multiplier fits.
* `delay_stuck_at_32_bits`: A doubling delay that stops doubling.
-/

namespace GraphRefly.WorkQueue

/-! ### The formulas -/

section

variable (policy : BackoffPolicy) (attempt : Nat)

/-- The delay before an attempt, in unbounded arithmetic. -/
def BackoffPolicy.formula : Nat :=
  match policy with
  | .none => 0
  | constant delayMs => delayMs
  | linear initialMs stepMs _ => initialMs + stepMs * (attempt - 1)
  | exponential initialMs factor _ => initialMs * factor ^ (attempt - 1)
  | fibonacci unitMs _ => unitMs * Nat.fib attempt

/-- The greatest delay a policy allows, where it names one. -/
def BackoffPolicy.maxMs : BackoffPolicy → Option Nat
  | .none | constant _ => Option.none
  | linear _ _ maxMs | exponential _ _ maxMs | fibonacci _ maxMs => maxMs

/-- The formula, clamped first to 64 bits and then to the policy's maximum. -/
def BackoffPolicy.exactDelay : Nat :=
  cap (min (policy.formula attempt) maxU64) policy.maxMs

/-- The fields are numbers of the widths they are declared with. -/
def BackoffPolicy.Typed : BackoffPolicy → Prop
  | .none => True
  | constant delayMs => delayMs ≤ maxU64
  | linear initialMs stepMs maxMs =>
    initialMs ≤ maxU64 ∧ stepMs ≤ maxU64 ∧ ∀ max ∈ maxMs, max ≤ maxU64
  | exponential initialMs factor maxMs =>
    initialMs ≤ maxU64 ∧ factor ≤ maxU32 ∧ ∀ max ∈ maxMs, max ≤ maxU64
  | fibonacci unitMs maxMs => unitMs ≤ maxU64 ∧ ∀ max ∈ maxMs, max ≤ maxU64

/-- A multiplier of 32 bits loses nothing: it holds the number, or it is
    multiplied by zero, or the largest one already reaches the clamp. -/
def Scales (base multiplier : Nat) (maxMs : Option Nat) : Prop :=
  base = 0 ∨ multiplier ≤ maxU32 ∨ cap maxU64 maxMs ≤ base * maxU32

/-- The 32 bits in which a policy computes its multiplier suffice. -/
def BackoffPolicy.MultiplierFits : Prop :=
  match policy with
  | exponential initialMs factor maxMs => Scales initialMs (factor ^ (attempt - 1)) maxMs
  | fibonacci unitMs maxMs => Scales unitMs (Nat.fib attempt) maxMs
  | _ => True

end

/-! ### Clamping -/

theorem cap_min (value : Nat) (maxMs : Option Nat) :
    cap (min value maxU64) maxMs = min value (cap maxU64 maxMs) := by
  cases maxMs with
  | none => rfl
  | some max => simp only [cap, min_assoc]

theorem cap_le {value : Nat} {maxMs : Option Nat} {max : Nat} (h : max ∈ maxMs) :
    cap value maxMs ≤ max := by
  obtain rfl : maxMs = some max := h
  exact Nat.min_le_right value max

theorem cap_mono {value value' : Nat} (h : value ≤ value') (maxMs : Option Nat) :
    cap value maxMs ≤ cap value' maxMs := by
  cases maxMs with
  | none => exact h
  | some max => exact min_le_min_right max h

theorem scaled_iff (base multiplier : Nat) (maxMs : Option Nat) :
    cap (min (base * min multiplier maxU32) maxU64) maxMs =
        cap (min (base * multiplier) maxU64) maxMs ↔
      Scales base multiplier maxMs := by
  rw [cap_min, cap_min]
  constructor
  · intro heq
    by_cases hbase : base = 0
    · exact Or.inl hbase
    by_cases hfits : multiplier ≤ maxU32
    · exact Or.inr (Or.inl hfits)
    refine Or.inr (Or.inr ?_)
    -- The products differ, so both are past the clamp.
    have hlt : base * maxU32 < base * multiplier :=
      Nat.mul_lt_mul_of_pos_left (Nat.lt_of_not_le hfits) (Nat.pos_of_ne_zero hbase)
    rw [Nat.min_eq_right (Nat.le_of_not_le hfits)] at heq
    omega
  · rintro (hbase | hfits | hreached)
    · rw [hbase, Nat.zero_mul, Nat.zero_mul]
    · rw [Nat.min_eq_left hfits]
    · by_cases hfits : multiplier ≤ maxU32
      · rw [Nat.min_eq_left hfits]
      have hle : base * maxU32 ≤ base * multiplier :=
        Nat.mul_le_mul_left base (Nat.le_of_not_le hfits)
      rw [Nat.min_eq_right (Nat.le_of_not_le hfits)]
      omega

/-! ### The Fibonacci loop -/

/-- The loop carries two neighbours of the sequence, each clamped on its own.
    A clamped neighbour does not hurt: the sum it enters is clamped as well. -/
theorem fibonacciLoop_eq (steps k : Nat) :
    fibonacciLoop steps (min (Nat.fib k) maxU32) (min (Nat.fib (k + 1)) maxU32) =
      min (Nat.fib (k + 1 + steps)) maxU32 := by
  induction steps generalizing k with
  | zero => rfl
  | succ steps ih =>
    have hnext : min (min (Nat.fib k) maxU32 + min (Nat.fib (k + 1)) maxU32) maxU32 =
        min (Nat.fib (k + 2)) maxU32 := by
      rw [Nat.fib_add_two]
      omega
    rw [fibonacciLoop, hnext, ih (k + 1)]
    congr 2
    omega

/-- The loop computes the Fibonacci number, clamped to 32 bits. -/
theorem fibonacci_eq (n : Nat) : fibonacci n = min (Nat.fib n) maxU32 := by
  match n with
  | 0 => rfl
  | 1 => rfl
  | n + 2 =>
    have hloop := fibonacciLoop_eq (n + 1) 0
    rw [show 0 + 1 + (n + 1) = n + 2 by omega] at hloop
    exact hloop

example : fibonacci 10 = 55 := by decide

/-! ### Delays -/

/-- Delays do not exceed the maximum of the policy. -/
theorem delayMs_le_max (policy : BackoffPolicy) (attempt : Nat) {max : Nat}
    (h : max ∈ policy.maxMs) : policy.delayMs attempt ≤ max := by
  cases policy with
  | none => cases h
  | constant delayMs => cases h
  | linear initialMs stepMs maxMs => exact cap_le h
  | exponential initialMs factor maxMs => exact cap_le h
  | fibonacci unitMs maxMs => exact cap_le h

/-- The powers of the policy's factor do not fall with the attempt. -/
def BackoffPolicy.Growing : BackoffPolicy → Prop
  | exponential _ factor _ => 1 ≤ factor
  | _ => True

/-- Delays do not fall from one attempt to a later one. -/
theorem delayMs_mono {policy : BackoffPolicy} (hgrowing : policy.Growing) {attempt later : Nat}
    (h : attempt ≤ later) : policy.delayMs attempt ≤ policy.delayMs later := by
  cases policy with
  | none => exact Nat.le_refl 0
  | constant delayMs => exact Nat.le_refl delayMs
  | linear initialMs stepMs maxMs =>
    have hstep : stepMs * (attempt - 1) ≤ stepMs * (later - 1) :=
      Nat.mul_le_mul_left stepMs (by omega)
    exact cap_mono (by omega) maxMs
  | exponential initialMs factor maxMs =>
    have hpow : factor ^ (attempt - 1) ≤ factor ^ (later - 1) :=
      Nat.pow_le_pow_right hgrowing (by omega)
    have hscaled : initialMs * min (factor ^ (attempt - 1)) maxU32 ≤
        initialMs * min (factor ^ (later - 1)) maxU32 :=
      Nat.mul_le_mul_left initialMs (min_le_min_right maxU32 hpow)
    exact cap_mono (min_le_min_right maxU64 hscaled) maxMs
  | fibonacci unitMs maxMs =>
    have hfib : fibonacci attempt ≤ fibonacci later := by
      rw [fibonacci_eq, fibonacci_eq]
      exact min_le_min_right maxU32 (Nat.fib_mono h)
    have hscaled : unitMs * fibonacci attempt ≤ unitMs * fibonacci later :=
      Nat.mul_le_mul_left unitMs hfib
    exact cap_mono (min_le_min_right maxU64 hscaled) maxMs

/-- The delay is the one of the formula exactly when the multiplier fits. In
    any case it does not exceed the maximum and does not fall with the attempt. -/
theorem delayMs_exact_iff (policy : BackoffPolicy) (htyped : policy.Typed) (attempt : Nat)
    (hattempt : 1 ≤ attempt) :
    (policy.delayMs attempt = policy.exactDelay attempt ↔ policy.MultiplierFits attempt) ∧
      (∀ max ∈ policy.maxMs, policy.delayMs attempt ≤ max) ∧
      (policy.Growing → ∀ earlier, 1 ≤ earlier → earlier ≤ attempt →
        policy.delayMs earlier ≤ policy.delayMs attempt) := by
  refine ⟨?_, fun max h => delayMs_le_max policy attempt h,
    fun hgrowing earlier _ h => delayMs_mono hgrowing h⟩
  cases policy with
  | none => exact iff_of_true rfl trivial
  | constant delayMs =>
    have hfits : delayMs = min delayMs maxU64 := (Nat.min_eq_left htyped).symm
    exact iff_of_true hfits trivial
  | linear initialMs stepMs maxMs =>
    -- Both saturations are at the bound of the final clamp.
    have hsum : min (initialMs + min (stepMs * (attempt - 1)) maxU64) maxU64 =
        min (initialMs + stepMs * (attempt - 1)) maxU64 := by
      omega
    exact iff_of_true (congrArg (cap · maxMs) hsum) trivial
  | exponential initialMs factor maxMs => exact scaled_iff initialMs (factor ^ (attempt - 1)) maxMs
  | fibonacci unitMs maxMs =>
    have hscaled := scaled_iff unitMs (Nat.fib attempt) maxMs
    rw [← fibonacci_eq] at hscaled
    exact hscaled

theorem delayMs_exact_iff_doubling :
    ((BackoffPolicy.exponential 100 2 none).delayMs 33 =
        (BackoffPolicy.exponential 100 2 none).exactDelay 33 ↔
      (BackoffPolicy.exponential 100 2 none).MultiplierFits 33) ∧
    (∀ max ∈ (BackoffPolicy.exponential 100 2 none).maxMs,
      (BackoffPolicy.exponential 100 2 none).delayMs 33 ≤ max) ∧
    ((BackoffPolicy.exponential 100 2 none).Growing → ∀ earlier, 1 ≤ earlier → earlier ≤ 33 →
      (BackoffPolicy.exponential 100 2 none).delayMs earlier ≤
        (BackoffPolicy.exponential 100 2 none).delayMs 33) :=
  delayMs_exact_iff (.exponential 100 2 none)
    ⟨by decide, by decide, fun _ h => nomatch h⟩ 33 (by decide)

/-- A delay that doubles with every attempt stops doubling at the 33rd, where
    the multiplier is the greatest number of 32 bits instead of its successor. -/
theorem delay_stuck_at_32_bits :
    ¬ ∀ (policy : BackoffPolicy) (attempt : Nat), policy.Typed → 1 ≤ attempt →
      policy.delayMs attempt = policy.exactDelay attempt := by
  intro hexact
  have hthirtythird := hexact (.exponential 100 2 none) 33
    ⟨by decide, by decide, fun _ h => nomatch h⟩ (by decide)
  exact absurd hthirtythird (by decide)

end GraphRefly.WorkQueue
