import Mathlib.Data.Int.CardIntervalMod
import WorkersAuth.Crypto
import WorkersAuth.Encodings.Digits
import WorkersAuth.Sampling.Rejection

/-! Email codes from random words. A word is taken when it is below the largest multiple of the number
of codes, so every code has the same number of words.
-/

namespace WorkersAuth.DeviceAuth

open Encodings Filter Sampling
open scoped ENNReal Topology

/-- What `crypto.getRandomValues` puts into a `Uint32Array` of one element. -/
abbrev Word := Fin (2 ^ 32)

/-- `Math.floor(0x1_0000_0000 / space) * space`; the quotient of these integers is exact enough. -/
def codeLimit (digits : ℕ) : ℕ := 2 ^ 32 / 10 ^ digits * 10 ^ digits

/-- `String(value % space).padStart(digits, '0')`. -/
def codeOf (digits : ℕ) (value : Word) : String :=
  .ofList (padStart digits (toString (value.val % 10 ^ digits)).toList)

/-- `generateEmailCode`: draws words until one is below the limit; nothing when it still goes on after
so many turns.
-/
def generateEmailCode {m : Type → Type} [Monad m] (getRandomValue : m Word) (digits : ℕ)
    : ℕ → m (Option String)
  | 0 => return none
  | turns + 1 => do
      let value ← getRandomValue
      if value.val < codeLimit digits then return some (codeOf digits value)
      else generateEmailCode getRandomValue digits turns

/-- The code of a word that is taken. -/
def attempt (digits : ℕ) (value : Word) : Option String :=
  if value.val < codeLimit digits then some (codeOf digits value) else none

/-- The loop draws until an attempt gives a code, by induction on the turns. -/
theorem generateEmailCode_eq {m : Type → Type} [Monad m] (getRandomValue : m Word) (digits turns : ℕ)
    : generateEmailCode getRandomValue digits turns
      = untilAccepted getRandomValue (attempt digits) turns := by
  induction turns with
  | zero => rfl
  | succ turns ih =>
      rw [generateEmailCode, untilAccepted]
      congr 1
      funext value
      unfold attempt
      split
      · rfl
      · exact ih

/-- Of three words, the first is not taken. -/
example
    : ((generateEmailCode (m := StateM (List Word))
        (modifyGet fun words => (words.headD 0, words.tail)) 6 3).run' [4294967295, 42, 7]).run
      = some "000042" := by
  decide +kernel

-----------------------------------------------------------------------------------------
-- Words of a code
-----------------------------------------------------------------------------------------

/-- Below a multiple of a number every residue occurs equally often. -/
theorem card_residue {words space residue : ℕ} (smaller : residue < space)
    : (Finset.univ.filter (fun word : Fin words =>
        word.val < words / space * space ∧ word.val % space = residue)).card = words / space := by
  have positive : 0 < space := by omega
  have within : words / space * space ≤ words := Nat.div_mul_le_self words space
  have counted : (Finset.univ.filter (fun word : Fin words =>
        word.val < words / space * space ∧ word.val % space = residue)).card
      = ((Finset.range (words / space * space)).filter (fun value => value ≡ residue [MOD space])).card := by
    refine Finset.card_bij (fun word _ => word.val) ?_ ?_ ?_
    · intro word member
      simpa [Nat.ModEq, Nat.mod_eq_of_lt smaller] using member
    · intro first _ second _ same
      exact Fin.ext same
    · intro value member
      simp only [Finset.mem_filter, Finset.mem_range, Nat.ModEq, Nat.mod_eq_of_lt smaller] at member
      exact ⟨⟨value, by omega⟩, by simpa using member, rfl⟩
  rw [counted, ← Nat.count_eq_card_filter_range, Nat.count_modEq_card _ positive, Nat.mul_mod_left,
    Nat.mul_div_cancel _ positive]
  simp

/-- A string of some digits and no other characters. -/
theorem isDigits_iff {digits : ℕ} {code : String}
    : isDigits digits code ↔ code.toList.length = digits ∧ IsDecimal code.toList := by
  simp [isDigits, isDigitChar, IsDecimal]

/-- A word has a code when its residue is the code's number. -/
theorem codeOf_eq_iff {digits : ℕ} (positive : 0 < digits) {value : Word} {code : String}
    : codeOf digits value = code
      ↔ isDigits digits code ∧ value.val % 10 ^ digits = Nat.ofDigitChars 10 code.toList 0 := by
  have written : (toString (value.val % 10 ^ digits)).toList
      = Nat.toDigits 10 (value.val % 10 ^ digits) := by
    rw [Nat.toString_eq_ofList_toDigits, String.toList_ofList]
  rw [codeOf, ← String.toList_inj, String.toList_ofList, written,
    padStart_toDigits_eq_iff positive (Nat.mod_lt _ (by positivity)), isDigits_iff, eq_comm (a := _ % _)]

/-- Every string of so many digits is printed for equally many words that are taken, and nothing else
is printed.
-/
def EvenlyPrinted (digits : ℕ) : Prop :=
  ∀ code,
    (Finset.univ.filter (fun value : Word =>
      value.val < codeLimit digits ∧ codeOf digits value = code)).card
      = if isDigits digits code then 2 ^ 32 / 10 ^ digits else 0

theorem evenlyPrinted {digits : ℕ} (positive : 0 < digits) : EvenlyPrinted digits := by
  intro code
  simp only [codeOf_eq_iff positive]
  by_cases allowed : isDigits digits code
  · have smaller : Nat.ofDigitChars 10 code.toList 0 < 10 ^ digits := by
      obtain ⟨length, decimal⟩ := isDigits_iff.mp allowed
      exact length ▸ ofDigitChars_lt decimal
    simp only [allowed, true_and, if_true]
    exact card_residue smaller
  · simp [allowed]

/-- The words of an attempt with a code. -/
theorem wordsOf_attempt (digits : ℕ) (code : String)
    : wordsOf (attempt digits) (some code)
      = Finset.univ.filter (fun value : Word =>
        value.val < codeLimit digits ∧ codeOf digits value = code) := by
  refine Finset.filter_congr (fun value _ => ?_)
  simp [attempt]

/-- The largest multiple of a number is more than half of any that is no smaller: it is not zero, and
the rest is less than the number.
-/
theorem lt_two_mul_multiple {words space : ℕ} (positive : 0 < space) (fits : space ≤ words)
    : words < 2 * (words / space * space) := by
  have one : 1 ≤ words / space := (Nat.one_le_div_iff positive).mpr fits
  have least : space ≤ words / space * space := Nat.le_mul_of_pos_left _ one
  have rest := Nat.mod_lt words positive
  have whole := Nat.div_add_mod' words space
  omega

theorem card_taken (digits : ℕ)
    : (Finset.univ.filter (fun value : Word => value.val < codeLimit digits)).card = codeLimit digits := by
  rw [Fin.card_filter_val_lt]
  exact min_eq_right (Nat.div_mul_le_self _ _)

-----------------------------------------------------------------------------------------
-- Uniform independent words
-----------------------------------------------------------------------------------------

/-- The law of the code after so many turns, when all words are equally likely at every turn. -/
noncomputable def codeLaw (digits turns : ℕ) : PMF (Option String) :=
  generateEmailCode (PMF.uniformOfFintype Word) digits turns

theorem codeLaw_eq (digits turns : ℕ) : codeLaw digits turns = law (attempt digits) turns :=
  generateEmailCode_eq ..

/-- The words with a code are those below the limit. -/
theorem filter_isSome_attempt (digits : ℕ)
    : Finset.univ.filter (fun value => (attempt digits value).isSome)
      = Finset.univ.filter (fun value : Word => value.val < codeLimit digits) := by
  refine Finset.filter_congr (fun value _ => ?_)
  unfold attempt
  split <;> simp [*]

/-- The share of rejected words is below one half. -/
theorem share_rejected_lt {digits : ℕ} (fits : 10 ^ digits ≤ 2 ^ 32)
    : share (attempt digits) none < 2⁻¹ := by
  have all := card_accepted (attempt digits)
  have most : 2 ^ 32 < 2 * codeLimit digits := lt_two_mul_multiple (by positivity) fits
  rw [filter_isSome_attempt, card_taken, Fintype.card_fin] at all
  have few : (wordsOf (attempt digits) none).card * 2 < 2 ^ 32 := by omega
  rw [share, Fintype.card_fin, ENNReal.div_lt_iff (.inl (by norm_num)) (.inl (by norm_num)), mul_comm,
    ← div_eq_mul_inv, ENNReal.lt_div_iff_mul_lt (.inl (by norm_num)) (.inl (by norm_num))]
  exact_mod_cast few

/-- The codes of so many digits are printed evenly, more than half of all words are taken, and with
uniform independent words every code is equally likely, nothing else is printed, and every turn goes
on with one probability, which is below one half.
-/
theorem generateEmailCode_uniform {digits : ℕ} (positive : 0 < digits) (fits : 10 ^ digits ≤ 2 ^ 32)
    : EvenlyPrinted digits
      ∧ 2 ^ 32 < 2 * (Finset.univ.filter (fun value : Word => value.val < codeLimit digits)).card
      ∧ (∀ turns first second, isDigits digits first → isDigits digits second →
        codeLaw digits turns (some first) = codeLaw digits turns (some second))
      ∧ (∀ turns code, ¬isDigits digits code → codeLaw digits turns (some code) = 0)
      ∧ (∀ code, isDigits digits code →
        Tendsto (fun turns => codeLaw digits turns (some code)) atTop (𝓝 (10 ^ digits)⁻¹))
      ∧ ∃ goesOn < (2⁻¹ : ℝ≥0∞), ∀ turns, codeLaw digits turns none = goesOn ^ turns := by
  have even := evenlyPrinted positive
  refine ⟨even, ?most, ?equal, ?others, ?limit, share (attempt digits) none, share_rejected_lt fits, ?goesOn⟩
  case most =>
    rw [card_taken]
    exact lt_two_mul_multiple (by positivity) fits
  case equal =>
    intro turns first second isFirst isSecond
    rw [codeLaw_eq]
    refine law_some_congr _ ?_ turns
    rw [wordsOf_attempt, wordsOf_attempt, even, even, if_pos isFirst, if_pos isSecond]
  case others =>
    intro turns code other
    rw [codeLaw_eq]
    refine law_some_eq_zero _ ?_ turns
    rw [← Finset.card_eq_zero, wordsOf_attempt, even, if_neg other]
  case limit =>
    intro code allowed
    have some_word : ((2 ^ 32 / 10 ^ digits : ℕ) : ℝ≥0∞) ≠ 0 := by
      exact_mod_cast (Nat.div_pos fits (by positivity)).ne'
    have ratio : ((2 ^ 32 / 10 ^ digits : ℕ) : ℝ≥0∞) / (codeLimit digits : ℕ) = (10 ^ digits)⁻¹ := by
      rw [codeLimit, Nat.cast_mul, div_eq_mul_inv,
        ENNReal.mul_inv (.inl some_word) (.inl (ENNReal.natCast_ne_top _)), ← mul_assoc,
        ENNReal.mul_inv_cancel some_word (ENNReal.natCast_ne_top _), one_mul, Nat.cast_pow, Nat.cast_ofNat]
    have limit := tendsto_law_some (attempt digits) code
    rw [wordsOf_attempt, even, if_pos allowed, filter_isSome_attempt, card_taken, ratio] at limit
    simpa only [codeLaw_eq] using limit
  case goesOn =>
    intro turns
    rw [codeLaw_eq, law_none]

/-- The codes of six digits. -/
theorem generateEmailCode_uniform_six
    : EvenlyPrinted 6
      ∧ (∀ turns, codeLaw 6 turns (some "000042") = codeLaw 6 turns (some "999999")) := by
  obtain ⟨even, _, equal, _⟩ := @generateEmailCode_uniform 6 (by decide) (by decide)
  exact ⟨even, fun turns => equal turns _ _ (by decide) (by decide)⟩

/-- With no digits a digit is printed: the claim fails where the text of zero is longer than the width. -/
theorem not_evenlyPrinted_zero : 10 ^ 0 ≤ 2 ^ 32 ∧ ¬EvenlyPrinted 0 := by
  refine ⟨by decide, fun even => ?_⟩
  have none_printed := even "0"
  rw [if_neg (by decide), Finset.card_eq_zero, Finset.filter_eq_empty_iff] at none_printed
  exact none_printed (Finset.mem_univ 0) ⟨by decide, by decide⟩

end WorkersAuth.DeviceAuth
