import Playback.Json.Document
import Playback.Json.Writer
import Mathlib.Data.List.TakeDrop
import Mathlib.Data.List.TakeWhile

namespace Playback.Json

/-- Nothing stands at the start of a text that would carry on a number before it. -/
def Stops (rest : List Char) : Prop :=
  ∀ c ∈ rest.head?, c.isDigit = false ∧ c ≠ '.' ∧ c ≠ 'e' ∧ c ≠ 'E'

theorem span_digits (digits rest : List Char) (all : ∀ c ∈ digits, c.isDigit = true)
    (stops : Stops rest) : (digits ++ rest).span Char.isDigit = (digits, rest) := by
  have none : rest.takeWhile Char.isDigit = [] ∧ rest.dropWhile Char.isDigit = rest := by
    cases rest with
    | nil => exact ⟨rfl, rfl⟩
    | cons c rest =>
        have other := (stops c rfl).1
        simp [other]
  rw [List.span_eq_takeWhile_dropWhile, List.takeWhile_append_of_pos all,
    List.dropWhile_append_of_pos all, none.1, none.2, List.append_nil]

theorem le_ofDigitChars (cs : List Char) (n : Nat) : n ≤ Nat.ofDigitChars 10 cs n := by
  induction cs generalizing n with
  | nil => exact Nat.le_refl n
  | cons c cs ih =>
      have next : 10 * n + digitValue c ≤ Nat.ofDigitChars 10 (c :: cs) n := ih _
      omega

theorem gather_of_fits (cs : List Char) (n : Nat) (fits : Nat.ofDigitChars 10 cs n < Word.bound) :
    gather n cs = (Nat.ofDigitChars 10 cs n, cs.length) := by
  induction cs generalizing n with
  | nil => rfl
  | cons c cs ih =>
      have le : 10 * n + digitValue c ≤ Nat.ofDigitChars 10 (c :: cs) n := le_ofDigitChars cs _
      have within : 10 * n + digitValue c < Word.bound := Nat.lt_of_le_of_lt le fits
      have next : gather (10 * n + digitValue c) cs =
          (Nat.ofDigitChars 10 (c :: cs) n, cs.length) := ih _ fits
      rw [gather]
      simp only [within, if_true, next, List.length_cons]

theorem digitChar_ne_zero : ∀ n < 10, 0 < n → Nat.digitChar n ≠ '0' := by decide

theorem toDigits_ne_zero_cons (n : Nat) (positive : 0 < n) (rest : List Char) :
    Nat.toDigits 10 n ≠ '0' :: rest := by
  induction n using Nat.strong_induction_on generalizing rest with
  | _ n ih =>
      by_cases small : n < 10
      · rw [Nat.toDigits_of_lt_base small]
        intro same
        exact digitChar_ne_zero n small positive (List.cons.inj same).1
      · have large : 10 ≤ n := Nat.not_lt.mp small
        rw [Nat.toDigits_of_base_le (by decide) large]
        intro same
        cases front : Nat.toDigits 10 (n / 10) with
        | nil => exact Nat.toDigits_ne_nil front
        | cons c cs =>
            rw [front, List.cons_append] at same
            rw [(List.cons.inj same).1] at front
            exact ih (n / 10) (by omega) (by omega) cs front

theorem toDigits_eq_cons (n : Nat) :
    ∃ c cs, Nat.toDigits 10 n = c :: cs ∧ c.isDigit = true := by
  cases digits : Nat.toDigits 10 n with
  | nil => exact absurd digits Nat.toDigits_ne_nil
  | cons c cs =>
      have first : c ∈ Nat.toDigits 10 n := by
        rw [digits]
        exact List.mem_cons_self
      exact ⟨c, cs, rfl, Nat.isDigit_of_mem_toDigits (by decide) (by decide) first⟩

theorem scanNumber_toDigits (negative : Bool) (n : Nat) (rest : List Char) (stops : Stops rest) :
    scanNumber negative (Nat.toDigits 10 n ++ rest) =
      .ok (Numeral.value ⟨negative, Nat.toDigits 10 n, none, none⟩, rest) := by
  have all (c : Char) (member : c ∈ Nat.toDigits 10 n) : c.isDigit = true :=
    Nat.isDigit_of_mem_toDigits (by decide) (by decide) member
  have spanned := span_digits (Nat.toDigits 10 n) rest all stops
  have fraction : scanFraction rest = .ok (none, rest) := by
    unfold scanFraction
    split
    · exact absurd rfl (stops '.' rfl).2.1
    · rfl
  have exponent : scanExponent rest = .ok (none, rest) := by
    unfold scanExponent
    split
    · rename_i c tail
      obtain ⟨-, -, lower, upper⟩ := stops c rfl
      simp [lower, upper]
    · rfl
  unfold scanNumber
  rw [spanned]
  dsimp only [bind, Except.bind]
  split
  · rename_i none
    exact absurd none Nat.toDigits_ne_nil
  · -- A leading zero stands alone, and only zero has one.
    rename_i second more leading
    rcases Nat.eq_zero_or_pos n with rfl | positive
    · cases leading
    · exact absurd leading (toDigits_ne_zero_cons n positive _)
  · rw [fraction]
    dsimp only
    rw [exponent]
    rfl

theorem value_toDigits (n : Int) (low : -(Word.half : Int) ≤ n) (high : n < Word.bound) :
    Numeral.value ⟨decide (n < 0), Nat.toDigits 10 n.natAbs, none, none⟩ = .ok (.integer n) := by
  have fits : n.natAbs < Word.bound := by
    unfold Word.half Word.bound at *
    omega
  have gathered : gather 0 (Nat.toDigits 10 n.natAbs) =
      (n.natAbs, (Nat.toDigits 10 n.natAbs).length) := by
    have same : Nat.ofDigitChars 10 (Nat.toDigits 10 n.natAbs) 0 = n.natAbs :=
      Nat.ofDigitChars_toDigits (by decide) (by decide)
    have all := gather_of_fits (Nat.toDigits 10 n.natAbs) 0 (by rw [same]; exact fits)
    rwa [same] at all
  simp only [Numeral.value, gathered, Nat.sub_self, ne_eq, not_true, if_false]
  by_cases negative : n < 0
  · have whole : ¬ (n.natAbs = 0 ∨ Word.half < n.natAbs) := by
      unfold Word.half at *
      omega
    have same : -(n.natAbs : Int) = n := by omega
    simp only [negative, decide_true, Bool.not_true, Bool.false_eq_true, if_false, whole, same]
  · have same : (n.natAbs : Int) = n := by omega
    simp [negative, same]

theorem scanValue_number (fuel : Nat) (cs tail : List Char) (c : Char)
    (skipped : skipBlanks cs = c :: tail) (numeric : (c == '-' || c.isDigit) = true) :
    scanValue (fuel + 1) cs =
      match scanNumber (c == '-') (if c == '-' then tail else c :: tail) with
      | .ok (n, rest) => (.number n, some rest)
      | .error b => (.broken b, none) := by
  have other (d : Char) (shape : (d == '-' || d.isDigit) = false) : c ≠ d := by
    rintro rfl
    rw [shape] at numeric
    contradiction
  rw [scanValue, skipped]
  split
  · contradiction
  · rename_i same
    exact absurd (List.cons.inj same).1 (other 'n' rfl)
  · rename_i same
    exact absurd (List.cons.inj same).1 (other 't' rfl)
  · rename_i same
    exact absurd (List.cons.inj same).1 (other 'f' rfl)
  · rename_i same
    exact absurd (List.cons.inj same).1 (other '"' rfl)
  · rename_i same
    exact absurd (List.cons.inj same).1 (other '[' rfl)
  · rename_i same
    exact absurd (List.cons.inj same).1 (other '{' rfl)
  · rename_i same
    obtain ⟨rfl, rfl⟩ := List.cons.inj same
    exact if_pos numeric

theorem skipBlanks_cons (c : Char) (rest : List Char) (shown : isBlank c = false) :
    skipBlanks (c :: rest) = c :: rest := by
  simp [skipBlanks, shown]

theorem isBlank_of_isDigit (c : Char) (digit : c.isDigit = true) : isBlank c = false := by
  have other : c ≠ ' ' ∧ c ≠ '\n' ∧ c ≠ '\t' ∧ c ≠ '\r' := by
    refine ⟨?_, ?_, ?_, ?_⟩ <;>
    · rintro rfl
      revert digit
      decide
  simp [isBlank, other]

theorem scanValue_writeInt (n : Int) (low : -(Word.half : Int) ≤ n) (high : n < Word.bound)
    (fuel : Nat) (rest : List Char) (stops : Stops rest) :
    scanValue (fuel + 1) (writeInt n ++ rest) = (.number (.ok (.integer n)), some rest) := by
  have value := value_toDigits n low high
  by_cases negative : n < 0
  · have text : writeInt n ++ rest = '-' :: (Nat.toDigits 10 n.natAbs ++ rest) := by
      rw [writeInt, if_pos negative, List.cons_append]
    have read := scanNumber_toDigits true n.natAbs rest stops
    rw [decide_eq_true negative] at value
    rw [text, scanValue_number fuel _ _ '-' rfl rfl]
    simp [read, value]
  · have text : writeInt n = Nat.toDigits 10 n.natAbs := if_neg negative
    have read := scanNumber_toDigits false n.natAbs rest stops
    rw [decide_eq_false negative] at value
    obtain ⟨c, cs, digits, digit⟩ := toDigits_eq_cons n.natAbs
    have unsigned : (c == '-') = false := by
      rw [beq_eq_false_iff_ne]
      rintro rfl
      revert digit
      decide
    have skipped := skipBlanks_cons c (cs ++ rest) (isBlank_of_isDigit c digit)
    rw [digits] at text read value
    rw [List.cons_append] at read
    rw [text, List.cons_append, scanValue_number fuel _ _ c skipped (by rw [digit, Bool.or_true]),
      unsigned]
    simp only [Bool.false_eq_true, if_false, read, value]

end Playback.Json
