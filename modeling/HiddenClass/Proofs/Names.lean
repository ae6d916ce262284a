import HiddenClass.Names
import Mathlib.Data.List.Nodup

/-!
Keys and the texts they are interned from. A text is read as an array index if it is the decimal
form of one, and no name in a table is such a text. Each name has one place in the table, which it
keeps.
-/

namespace HiddenClass

namespace Key

/-- A decimal digit as the place it stands for. -/
def digit (char : Char) : Nat := char.toNat - '0'.toNat

theorem digit_lt {char : Char} (decimal : char.isDigit = true) : digit char < 10 := by
  have nine : '9'.toNat = '0'.toNat + 9 := rfl
  have most := (Char.isDigit_iff_toNat.mp decimal).2
  unfold digit
  omega

theorem digit_pos {char : Char} (decimal : char.isDigit = true) (other : char ≠ '0') :
    0 < digit char := by
  have least := (Char.isDigit_iff_toNat.mp decimal).1
  have apart : char.toNat ≠ '0'.toNat := fun same => other (Char.toNat_inj.mp same)
  unfold digit
  omega

theorem toDigits_digit {char : Char} (decimal : char.isDigit = true) :
    Nat.toDigits 10 (digit char) = [char] := by
  have zero : '0'.toNat = 48 := rfl
  have least := (Char.isDigit_iff_toNat.mp decimal).1
  have same : Nat.digitChar (digit char) = char := by
    apply Char.toNat_inj.mp
    rw [Nat.toNat_digitChar_of_lt_ten (digit_lt decimal)]
    unfold digit
    omega
  rw [Nat.toDigits_of_lt_base (digit_lt decimal), same]

/-- Digits read on from a number other than zero are written behind its own. -/
theorem toDigits_ofDigitChars_of_pos {digits : List Char} {front : Nat}
    (decimal : ∀ char ∈ digits, char.isDigit = true) (positive : 0 < front) :
    Nat.toDigits 10 (Nat.ofDigitChars 10 digits front) = Nat.toDigits 10 front ++ digits := by
  induction digits generalizing front with
  | nil => rw [Nat.ofDigitChars_nil, List.append_nil]
  | cons char rest ih =>
    obtain ⟨first, others⟩ := List.forall_mem_cons.mp decimal
    calc
      _ = Nat.toDigits 10 (10 * front + digit char) ++ rest := ih others (by omega)
      _ = Nat.toDigits 10 front ++ Nat.toDigits 10 (digit char) ++ rest := by
        rw [Nat.toDigits_append_toDigits (by decide) positive (digit_lt first)]
      _ = Nat.toDigits 10 front ++ (char :: rest) := by
        rw [toDigits_digit first, List.append_assoc, List.singleton_append]

/-- Digits without a leading zero are the decimal form of their value. -/
theorem toDigits_ofDigitChars {text : List Char} (nonempty : text ≠ [])
    (decimal : ∀ char ∈ text, char.isDigit = true)
    (leading : 1 < text.length → text.head? ≠ some '0') :
    Nat.toDigits 10 (Nat.ofDigitChars 10 text 0) = text := by
  cases text with
  | nil => exact absurd rfl nonempty
  | cons char rest =>
    obtain ⟨first, others⟩ := List.forall_mem_cons.mp decimal
    have value : Nat.ofDigitChars 10 (char :: rest) 0 = Nat.ofDigitChars 10 rest (digit char) := by
      rw [Nat.ofDigitChars_cons, Nat.mul_zero, Nat.zero_add, digit]
    rw [value]
    cases rest with
    | nil => exact toDigits_digit first
    | cons second rest =>
      have other : char ≠ '0' := by
        rintro rfl
        exact leading (Nat.succ_lt_succ (Nat.succ_pos _)) rfl
      rw [toDigits_ofDigitChars_of_pos others (digit_pos first other), toDigits_digit first,
        List.singleton_append]

/-- Only zero is written with a leading zero. -/
theorem head?_toDigits {n : Nat} (positive : 0 < n) : (Nat.toDigits 10 n).head? ≠ some '0' := by
  induction n using Nat.strongRecOn with
  | ind n ih =>
    rw [Nat.toDigits_eq_if (by decide)]
    by_cases small : n < 10
    · rw [if_pos small]
      intro same
      have zero := congrArg Char.toNat (Option.some.inj same)
      rw [Nat.toNat_digitChar_of_lt_ten small] at zero
      have code : '0'.toNat = 48 := rfl
      omega
    · rw [if_neg small, List.head?_append_of_ne_nil _ Nat.toDigits_ne_nil]
      exact ih _ (by omega) (by omega)

theorem readIndex_toDigits {n : Nat} (small : n < indexBound) :
    readIndex (Nat.toDigits 10 n) = some n := by
  have short : (Nat.toDigits 10 n).length ≤ 10 := by
    rw [Nat.length_toDigits_le_iff (by decide) (by decide)]
    exact Nat.lt_trans small (by decide)
  have decimal : (Nat.toDigits 10 n).all Char.isDigit = true :=
    List.all_eq_true.mpr fun _ member => Nat.isDigit_of_mem_toDigits (by decide) (by decide) member
  have leading : ¬(1 < (Nat.toDigits 10 n).length && (Nat.toDigits 10 n).head? = some '0') := by
    rw [Bool.and_eq_true, decide_eq_true_eq, decide_eq_true_eq]
    rintro ⟨long, zero⟩
    have several : ¬n < 10 ^ 1 := by
      rw [← Nat.length_toDigits_le_iff (by decide) (by decide)]
      omega
    exact head?_toDigits (by omega) zero
  unfold readIndex
  rw [if_neg (by simp [Nat.toDigits_ne_nil, decimal, short]), if_neg leading,
    ← Nat.ofDigitChars_eq_foldl, Nat.ofDigitChars_ten_toDigits]
  exact if_pos small

/-- A text is read as the array index that it is the decimal form of. -/
theorem readIndex_eq_some_iff {text : String} {n : Nat} :
    readIndex text.toList = some n ↔ text = toString n ∧ n < indexBound := by
  rw [Nat.toString_eq_ofList_toDigits]
  constructor
  · intro read
    unfold readIndex at read
    obtain ⟨regular, read⟩ := Option.ite_none_left_eq_some.mp read
    obtain ⟨leading, read⟩ := Option.ite_none_left_eq_some.mp read
    obtain ⟨small, same⟩ := Option.ite_none_right_eq_some.mp read
    rw [← Nat.ofDigitChars_eq_foldl] at small same
    simp only [Bool.or_eq_true, List.isEmpty_iff, Bool.not_eq_true', not_or, Bool.not_eq_false,
      List.all_eq_true] at regular
    simp only [Bool.and_eq_true, decide_eq_true_eq, not_and] at leading
    cases same
    refine ⟨?_, small⟩
    rw [toDigits_ofDigitChars regular.1.1 regular.2 leading, String.ofList_toList]
  · rintro ⟨rfl, small⟩
    rw [String.toList_ofList]
    exact readIndex_toDigits small

example : readIndex "4294967295".toList = none := by decide

theorem readIndex_lt {text : String} {n : Nat} (read : readIndex text.toList = some n) :
    n < indexBound :=
  (readIndex_eq_some_iff.mp read).2

end Key

namespace Names

variable {names : Names} {key : Key} {text : String}

/-- The table after texts are interned one after the other. -/
def internAll (names : Names) (texts : List String) : Names :=
  texts.foldl (fun table text => (table.intern text).1) names

/-- The places and the names are inverse to each other. No name is an index, and the first is that of
the length. -/
structure Sound (names : Names) : Prop where
  inverse : ∀ {id : Nat} {name : String},
    names.ids.lookup name = some id ↔ names.entries[id]? = some name
  unread : ∀ {id : Nat} {name : String}, names.entries[id]? = some name →
    Key.readIndex name.toList = none
  first : names.entries[0]? = some "length"

/-- The key belongs to the text. -/
inductive Denotes (names : Names) : Key → String → Prop where
  | index {n : Nat} {text : String} (read : Key.readIndex text.toList = some n) :
    Denotes names (.index n) text
  | named {id : Nat} {text : String} (found : names.entries[id]? = some text) :
    Denotes names (.named id) text

/-- Every name of the one table has the same place in the other. -/
def Extends (names after : Names) : Prop :=
  ∀ (id : Nat) (name : String), names.entries[id]? = some name → after.entries[id]? = some name

theorem sound_empty : Sound {} where
  inverse {id name} := by
    constructor
    · intro known
      rw [List.lookup_cons, List.lookup_nil] at known
      split at known
      case h_1 same =>
        cases eq_of_beq same
        cases known
        rfl
      case h_2 => cases known
    · intro found
      cases Nat.lt_one_iff.mp (Array.getElem?_eq_some_iff.mp found).1
      cases found
      rfl
  unread {id name} found := by
    cases Nat.lt_one_iff.mp (Array.getElem?_eq_some_iff.mp found).1
    cases found
    decide
  first := rfl

theorem Sound.denotes_length (sound : names.Sound) : names.Denotes .length "length" := .named sound.first

/-- A text has one key. -/
theorem Sound.key_eq {other : Key} (sound : names.Sound) (first : names.Denotes key text)
    (second : names.Denotes other text) : key = other := by
  cases first with
  | index read =>
    cases second with
    | index again => exact congrArg Key.index (Option.some.inj (read.symm.trans again))
    | named again => exact absurd (read.symm.trans (sound.unread again)) nofun
  | named found =>
    cases second with
    | index again => exact absurd (again.symm.trans (sound.unread found)) nofun
    | named again =>
      have known := sound.inverse.mpr found
      exact congrArg Key.named (Option.some.inj (known.symm.trans (sound.inverse.mpr again)))

theorem Denotes.describe (denotes : names.Denotes key text) : names.describe key = text := by
  cases denotes with
  | index read => exact (Key.readIndex_eq_some_iff.mp read).1.symm
  | named found => exact congrArg (·.getD "") found

/-- A key belongs to one text. -/
theorem Denotes.text_eq {other : String} (first : names.Denotes key text)
    (second : names.Denotes key other) : text = other :=
  first.describe.symm.trans second.describe

theorem Denotes.extend {after : Names} (denotes : names.Denotes key text)
    (longer : names.Extends after) : after.Denotes key text := by
  cases denotes with
  | index read => exact .index read
  | named found => exact .named (longer _ _ found)

theorem extends_push : names.Extends (names.push text) := by
  intro place name found
  have bound := (Array.getElem?_eq_some_iff.mp found).1
  rw [push, Array.getElem?_push, if_neg (Nat.ne_of_lt bound)]
  exact found

/-- A name without a place is not in the table. -/
theorem Sound.fresh (sound : names.Sound) (unknown : names.ids.lookup text = none) (id : Nat) :
    names.entries[id]? ≠ some text := fun found =>
  absurd (unknown.symm.trans (sound.inverse.mpr found)) nofun

theorem Sound.push (sound : names.Sound) (unread : Key.readIndex text.toList = none)
    (unknown : names.ids.lookup text = none) : (names.push text).Sound where
  inverse {id name} := by
    simp only [Names.push, List.lookup_cons, Array.getElem?_push]
    by_cases new : name = text
    · subst new
      rw [beq_self_eq_true]
      by_cases last : id = names.entries.size
      · simp [last, Names.size]
      · simp [last, sound.fresh unknown id, Names.size, Ne.symm last]
    · rw [beq_false_of_ne new]
      by_cases last : id = names.entries.size
      · subst last
        simp [sound.inverse, Ne.symm new]
      · simp [last, sound.inverse]
  unread {id name} found := by
    rw [Names.push, Array.getElem?_push] at found
    split at found
    · cases found
      exact unread
    · exact sound.unread found
  first := extends_push _ _ sound.first

/-- What interning does: the text gets a key, and all others keep theirs. -/
structure Assigned (names : Names) (text : String) (after : Names) (key : Key) : Prop where
  sound : after.Sound
  longer : names.Extends after
  denotes : after.Denotes key text

theorem Sound.intern (sound : names.Sound) (text : String) :
    names.Assigned text (names.intern text).1 (names.intern text).2 := by
  unfold Names.intern
  cases read : Key.readIndex text.toList with
  | some n => exact ⟨sound, fun _ _ found => found, .index read⟩
  | none =>
    dsimp only
    cases known : names.ids.lookup text with
    | some id => exact ⟨sound, fun _ _ found => found, .named (sound.inverse.mp known)⟩
    | none => exact ⟨sound.push read known, extends_push, .named Array.getElem?_push_size⟩

/-- Interning texts keeps the table sound and its names in their places. -/
theorem Sound.internAll (sound : names.Sound) (texts : List String) :
    (names.internAll texts).Sound ∧ names.Extends (names.internAll texts) := by
  induction texts generalizing names with
  | nil => exact ⟨sound, fun _ _ found => found⟩
  | cons text rest ih =>
    have first := sound.intern text
    obtain ⟨after, longer⟩ := ih first.sound
    exact ⟨after, fun _ _ found => longer _ _ (first.longer _ _ found)⟩

/-- After any texts were interned, a name is found at a place if and only if it stands there. -/
theorem lookup_internAll_iff (history : List String) (name : String) (id : Nat) :
    (internAll {} history).ids.lookup name = some id ↔
      (internAll {} history).entries[id]? = some name :=
  (sound_empty.internAll history).1.inverse

/-- Keys and texts belong to each other one to one. Whatever was interned before and in between, two
texts get the same key only if they are equal, and a key is described by its text from then on. An
index is the key of its decimal form if it is below the bound, and of nothing else; the key of the
length is that of its name, and of nothing else. -/
theorem intern_exact (history later : List String) (text other : String) (n : Nat) :
    let names := internAll {} history
    let after := (names.intern text).1
    let key := (names.intern text).2
    ((((after.internAll later).intern other).2 = key ↔ other = text) ∧
      (after.internAll later).describe key = text) ∧
    (key = .index n ↔ text = toString n ∧ n < Key.indexBound) ∧
    (key = .length ↔ text = "length") := by
  intro names after key
  obtain ⟨sound, _⟩ := sound_empty.internAll history
  have made : names.Assigned text after key := sound.intern text
  obtain ⟨kept, longer⟩ := made.sound.internAll later
  have denotes := made.denotes.extend longer
  have again := kept.intern other
  have length := made.sound.denotes_length
  refine ⟨⟨⟨?_, ?_⟩, denotes.describe⟩, ⟨?_, ?_⟩, ⟨?_, ?_⟩⟩
  · intro same
    rw [same] at again
    exact again.denotes.text_eq (denotes.extend again.longer)
  · rintro rfl
    exact again.sound.key_eq again.denotes (denotes.extend again.longer)
  · intro same
    rw [same] at made
    cases made.denotes with
    | index read => exact Key.readIndex_eq_some_iff.mp read
  · intro decimal
    exact made.sound.key_eq made.denotes (.index (Key.readIndex_eq_some_iff.mpr decimal))
  · intro same
    rw [same] at made
    exact made.denotes.text_eq length
  · rintro rfl
    exact made.sound.key_eq made.denotes length

end Names

end HiddenClass
