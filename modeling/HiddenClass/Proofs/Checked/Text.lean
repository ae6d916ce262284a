import HiddenClass.Key
import HiddenClass.Value
import Mathlib.Algebra.Order.Ring.Nat
import Mathlib.Algebra.BigOperators.Group.List.Basic

/-!
Texts cut at places that are counted in bytes. A place inside a character, or past the end, is none.
-/

namespace HiddenClass.Text

def bytes (text : List Char) : Nat := (text.map Char.utf8Size).sum

/-- What follows a place. -/
def after? : Nat → List Char → Option (List Char)
  | 0, text => some text
  | _ + 1, [] => none
  | n + 1, c :: rest => if c.utf8Size ≤ n + 1 then after? (n + 1 - c.utf8Size) rest else none

/-- What comes before a place. -/
def upTo? : Nat → List Char → Option (List Char)
  | 0, _ => some []
  | _ + 1, [] => none
  | n + 1, c :: rest =>
    if c.utf8Size ≤ n + 1 then (upTo? (n + 1 - c.utf8Size) rest).map (c :: ·) else none

def slice? (text : List Char) (start stop : Nat) : Option (List Char) :=
  if start ≤ stop then (after? start text).bind (upTo? (stop - start)) else none

theorem bytes_cons (c : Char) (text : List Char) : bytes (c :: text) = c.utf8Size + bytes text :=
  List.sum_cons

theorem bytes_append (front back : List Char) : bytes (front ++ back) = bytes front + bytes back := by
  unfold bytes
  rw [List.map_append, List.sum_append]

/-- A text with a character goes past the character to its end. -/
theorem bytes_cons_eq_succ (c : Char) (rest : List Char) :
    ∃ n, bytes (c :: rest) = n + 1 ∧ c.utf8Size ≤ n + 1 ∧ n + 1 - c.utf8Size = bytes rest := by
  have positive := c.utf8Size_pos
  have whole := bytes_cons c rest
  exact ⟨bytes (c :: rest) - 1, by omega, by omega, by omega⟩

theorem after?_append (front back : List Char) : after? (bytes front) (front ++ back) = some back := by
  induction front with
  | nil => exact after?.eq_1 back
  | cons c rest ih =>
    obtain ⟨n, size, fits, left⟩ := bytes_cons_eq_succ c rest
    rw [List.cons_append, size, after?, if_pos fits, left]
    exact ih

theorem upTo?_append (front back : List Char) : upTo? (bytes front) (front ++ back) = some front := by
  induction front with
  | nil => exact upTo?.eq_1 back
  | cons c rest ih =>
    obtain ⟨n, size, fits, left⟩ := bytes_cons_eq_succ c rest
    rw [List.cons_append, size, upTo?, if_pos fits, left, ih]
    rfl

/-- The places before and after a part are places of the text. -/
theorem slice?_append (front middle back : List Char) :
    slice? (front ++ (middle ++ back)) (bytes front) (bytes front + bytes middle) = some middle := by
  unfold slice?
  rw [if_pos (Nat.le_add_right _ _), after?_append, Option.bind_some, Nat.add_sub_cancel_left]
  exact upTo?_append middle back

theorem slice?_tail (front rest : List Char) :
    slice? (front ++ rest) (bytes front) (bytes (front ++ rest)) = some rest := by
  have whole := slice?_append front rest []
  rw [List.append_nil] at whole
  rw [bytes_append]
  exact whole

/-- What comes before a place is a front of the text. -/
theorem eq_append_of_upTo? {n : Nat} {text front : List Char} (cut : upTo? n text = some front) :
    ∃ back, text = front ++ back ∧ bytes front = n := by
  induction text generalizing n front with
  | nil =>
    cases n with
    | zero =>
      cases cut
      exact ⟨[], rfl, rfl⟩
    | succ n => cases cut
  | cons c rest ih =>
    cases n with
    | zero =>
      cases cut
      exact ⟨c :: rest, rfl, rfl⟩
    | succ n =>
      rw [upTo?] at cut
      split at cut
      · obtain ⟨shorter, further, rfl⟩ := Option.map_eq_some_iff.mp cut
        obtain ⟨back, rfl, size⟩ := ih further
        exact ⟨back, rfl, by rw [bytes_cons]; omega⟩
      · cases cut

end HiddenClass.Text

namespace HiddenClass.Value

/-- What follows a prefix of two bytes in a text is there to be read. -/
def prefixFits : Value → Bool
  | .text written =>
    let trimmed := Text.trim written.toList
    (Text.upTo? 2 trimmed).all fun _ => (Text.slice? trimmed 2 (Text.bytes trimmed)).isSome
  | _ => true

theorem prefixFits_eq_true (value : Value) : value.prefixFits = true := by
  cases value with
  | text written =>
    refine (Option.all_eq_true _ _).mpr fun front cut => ?_
    obtain ⟨back, whole, size⟩ := Text.eq_append_of_upTo? cut
    rw [whole, ← size, Text.slice?_tail]
    rfl
  | _ => rfl

end HiddenClass.Value

namespace HiddenClass.Key

/-- The digits are added one at a time, unless a sum is no double word. -/
def sumDigits? (text : List Char) (start : Nat) : Option Nat :=
  text.foldlM (fun n c =>
    if '0'.toNat ≤ c.toNat ∧ 10 * n + (c.toNat - '0'.toNat) ≤ 18446744073709551615
    then some (10 * n + (c.toNat - '0'.toNat)) else none) start

/-- An array index as it is read, unless a number is too large on the way. -/
def readIndexChecked? (text : List Char) : Option (Option Nat) :=
  if text.isEmpty || 10 < text.length || !text.all Char.isDigit then some none
  else if 1 < text.length && text.head? = some '0' then some none
  else (sumDigits? text 0).map fun n => if n < indexBound then some n else none

/-- Ten digits are not enough for a sum to be too large. -/
theorem sumDigits?_eq {text : List Char} (digits : text.all Char.isDigit = true) {start : Nat}
    (small : (start + 1) * 10 ^ text.length ≤ 10 ^ 10) :
    sumDigits? text start =
      some (text.foldl (fun n c => 10 * n + (c.toNat - '0'.toNat)) start) := by
  induction text generalizing start with
  | nil => rfl
  | cons c rest ih =>
    obtain ⟨digit, others⟩ := Bool.and_eq_true_iff.mp digits
    have range : '0'.toNat ≤ c.toNat ∧ c.toNat ≤ '0'.toNat + 9 := by
      simp only [Char.isDigit, Bool.and_eq_true, decide_eq_true_eq, ge_iff_le, UInt32.le_iff_toNat_le]
        at digit
      exact digit
    let next := 10 * start + (c.toNat - '0'.toNat)
    have fewer : (next + 1) * 10 ^ rest.length ≤ 10 ^ 10 :=
      calc (next + 1) * 10 ^ rest.length
        _ ≤ ((start + 1) * 10) * 10 ^ rest.length :=
          Nat.mul_le_mul_right _ (by simp only [next]; omega)
        _ = (start + 1) * 10 ^ (rest.length + 1) := by rw [Nat.pow_succ', Nat.mul_assoc]
        _ ≤ 10 ^ 10 := small
    have within : next + 1 ≤ 10 ^ 10 :=
      (Nat.le_mul_of_pos_right _ (Nat.pow_pos (Nat.zero_lt_succ 9))).trans fewer
    have step : '0'.toNat ≤ c.toNat ∧ next ≤ 18446744073709551615 := ⟨range.1, by omega⟩
    unfold sumDigits?
    rw [List.foldlM_cons, if_pos step]
    exact ih others fewer

theorem readIndexChecked?_eq (text : List Char) : readIndexChecked? text = some (readIndex text) := by
  unfold readIndexChecked? readIndex
  split
  · rfl
  · rename_i plain
    split
    · rfl
    · simp only [Bool.or_eq_true, decide_eq_true_eq, Bool.not_eq_true', not_or, Nat.not_lt,
        Bool.not_eq_false] at plain
      have small : (0 + 1) * 10 ^ text.length ≤ 10 ^ 10 := by
        rw [Nat.zero_add, Nat.one_mul]
        exact Nat.pow_le_pow_right (Nat.zero_lt_succ 9) plain.1.2
      rw [sumDigits?_eq plain.2 small]
      rfl

end HiddenClass.Key
