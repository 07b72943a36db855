import Mathlib.Analysis.SpecificLimits.Basic
import Mathlib.Probability.Distributions.Uniform
import Mathlib.Probability.ProbabilityMassFunction.Monad

/-! Rejection sampling. Words are drawn until an attempt gives an output; with uniform independent
words the loop goes on with the same probability at every turn, and an output is as likely as its
share of the words.
-/

namespace Sampling

open Filter
open scoped ENNReal Topology

/-- Draws words until an attempt gives an output; nothing after so many turns. -/
def untilAccepted {m : Type → Type} [Monad m] {Word Output : Type} (draw : m Word)
    (attempt : Word → Option Output)
    : ℕ → m (Option Output)
  | 0 => return none
  | turns + 1 => do
      match attempt (← draw) with
      | some output => return some output
      | none => untilAccepted draw attempt turns

variable {Word Output : Type} [Fintype Word] [DecidableEq Output] (attempt : Word → Option Output)

/-- The words whose attempt has a result. -/
def wordsOf (result : Option Output) : Finset Word := {word | attempt word = result}

/-- The share of these words among all. -/
noncomputable def share (result : Option Output) : ℝ≥0∞ :=
  (wordsOf attempt result).card / Fintype.card Word

variable [Nonempty Word]

/-- The law of the loop, with uniform independent words. -/
noncomputable def law (turns : ℕ) : PMF (Option Output) :=
  untilAccepted (PMF.uniformOfFintype Word) attempt turns

omit [DecidableEq Output] in
@[simp] theorem law_zero : law attempt 0 = PMF.pure none := rfl

/-- One turn: each word in turn, all of one probability. -/
theorem law_succ (turns : ℕ) (result : Option Output)
    : law attempt (turns + 1) result
      = ∑ word, (Fintype.card Word : ℝ≥0∞)⁻¹
          * (if attempt word = none then law attempt turns result
            else if attempt word = result then 1 else 0) := by
  have turn : law attempt (turns + 1)
      = (PMF.uniformOfFintype Word).bind (fun word =>
        match attempt word with
        | some output => PMF.pure (some output)
        | none => law attempt turns) :=
    rfl
  rw [turn, PMF.bind_apply, tsum_fintype]
  refine Finset.sum_congr rfl (fun word _ => ?_)
  rw [PMF.uniformOfFintype_apply]
  cases attempt word with
  | none => simp
  | some output => simp [PMF.pure_apply, eq_comm]

omit [Nonempty Word] in
/-- The words of a result have its share of the probability. -/
theorem sum_wordsOf (result : Option Output) (mass : ℝ≥0∞)
    : ∑ word, (Fintype.card Word : ℝ≥0∞)⁻¹ * (if attempt word = result then mass else 0)
      = share attempt result * mass := by
  rw [← Finset.mul_sum, ← Finset.sum_filter, Finset.sum_const, nsmul_eq_mul, share, wordsOf,
    ENNReal.div_eq_inv_mul, mul_assoc]

/-- The loop goes on when the word is rejected. -/
theorem law_succ_none (turns : ℕ)
    : law attempt (turns + 1) none = share attempt none * law attempt turns none := by
  rw [law_succ, ← sum_wordsOf]
  refine Finset.sum_congr rfl (fun word _ => ?_)
  cases attempt word <;> simp

/-- An output comes from a word of its own, or after a rejected word. -/
theorem law_succ_some (turns : ℕ) (output : Output)
    : law attempt (turns + 1) (some output)
      = share attempt none * law attempt turns (some output) + share attempt (some output) := by
  rw [law_succ, ← sum_wordsOf, ← mul_one (share attempt (some output)), ← sum_wordsOf,
    ← Finset.sum_add_distrib]
  refine Finset.sum_congr rfl (fun word _ => ?_)
  cases attempt word <;> simp

/-- Every turn rejects with the same probability, by induction on the turns. -/
theorem law_none (turns : ℕ) : law attempt turns none = share attempt none ^ turns := by
  induction turns with
  | zero => simp [PMF.pure_apply]
  | succ turns ih => rw [law_succ_none, ih, pow_succ']

/-- An output comes after any number of rejected words, by induction on the turns. -/
theorem law_some (turns : ℕ) (output : Output)
    : law attempt turns (some output)
      = share attempt (some output) * ∑ rejected ∈ Finset.range turns, share attempt none ^ rejected := by
  induction turns with
  | zero => simp [PMF.pure_apply]
  | succ turns ih =>
      rw [law_succ_some, ih, Finset.sum_range_succ', pow_zero, mul_add, mul_one, Finset.mul_sum,
        Finset.mul_sum, Finset.mul_sum]
      congr 1
      refine Finset.sum_congr rfl (fun rejected _ => ?_)
      rw [pow_succ]
      ring

/-- An output that no word gives has no probability. -/
theorem law_some_eq_zero {output : Output} (none_gives : wordsOf attempt (some output) = ∅) (turns : ℕ)
    : law attempt turns (some output) = 0 := by
  rw [law_some, share, none_gives]
  simp

/-- Outputs of equally many words are equally likely. -/
theorem law_some_congr {first second : Output}
    (same : (wordsOf attempt (some first)).card = (wordsOf attempt (some second)).card) (turns : ℕ)
    : law attempt turns (some first) = law attempt turns (some second) := by
  have shares : share attempt (some first) = share attempt (some second) := by
    rw [share, share, same]
  rw [law_some, law_some, shares]

omit [Nonempty Word] in
/-- A word gives an output or is rejected. -/
theorem card_accepted
    : (Finset.univ.filter (fun word => (attempt word).isSome)).card + (wordsOf attempt none).card
      = Fintype.card Word := by
  have rejected : wordsOf attempt none = Finset.univ.filter (fun word => ¬(attempt word).isSome) := by
    refine Finset.filter_congr (fun word _ => ?_)
    cases attempt word <;> simp
  rw [rejected, Finset.card_filter_add_card_filter_not, Finset.card_univ]

/-- In the long run an output is as likely as its share of the accepted words. -/
theorem tendsto_law_some (output : Output)
    : Tendsto (fun turns => law attempt turns (some output)) atTop
        (𝓝 ((wordsOf attempt (some output)).card
          / (Finset.univ.filter (fun word => (attempt word).isSome)).card)) := by
  set accepted := (Finset.univ.filter (fun word => (attempt word).isSome)).card with accepted_def
  have words : (Fintype.card Word : ℝ≥0∞) ≠ 0 := by
    exact_mod_cast Fintype.card_ne_zero
  have finite : (Fintype.card Word : ℝ≥0∞) ≠ ⊤ := ENNReal.natCast_ne_top _
  have all : (accepted : ℝ≥0∞) / Fintype.card Word + share attempt none = 1 := by
    rw [share, ← ENNReal.add_div, ← Nat.cast_add, accepted_def, card_accepted, ENNReal.div_self words finite]
  have rejects : share attempt none ≠ ⊤ := ENNReal.div_ne_top (ENNReal.natCast_ne_top _) words
  have stops : 1 - share attempt none = accepted / Fintype.card Word :=
    (ENNReal.eq_sub_of_add_eq rejects all).symm
  have limit : share attempt (some output) * tsum (fun rejected : ℕ => share attempt none ^ rejected)
      = (wordsOf attempt (some output)).card / accepted := by
    rw [ENNReal.tsum_geometric, stops, share, ← div_eq_mul_inv]
    simp only [div_eq_mul_inv (G := ℝ≥0∞) _ (Fintype.card Word : ℝ≥0∞)]
    exact ENNReal.mul_div_mul_right _ _ (ENNReal.inv_ne_zero.mpr finite) (ENNReal.inv_ne_top.mpr words)
  rw [← limit]
  simp only [law_some]
  refine ENNReal.Tendsto.const_mul (ENNReal.tendsto_nat_tsum _) (.inr ?_)
  exact ENNReal.div_ne_top (ENNReal.natCast_ne_top _) words

end Sampling
